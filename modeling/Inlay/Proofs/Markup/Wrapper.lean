import Inlay.Markup
import Inlay.Proofs.Markup.Regions
import Inlay.Proofs.Text.Bracketed
import Inlay.Proofs.Text.Trim
import Mathlib.Combinatorics.Enumerative.DyckWord

set_option autoImplicit false

namespace Inlay.Markup

open Text DyckStep

def wrapperForm (tag : Text) : Recogniser DyckStep where
  read _ text :=
    ((after? (opening tag ++ ['>']) text).map fun rest => (U, rest)).or
      ((after? (closing tag) text).map fun rest => (D, rest))
  advances found := by
    simp only [Option.or_eq_some_iff, Option.map_eq_some_iff, Prod.mk.injEq] at found
    rcases found with ⟨rest, opened, -, rfl⟩ | ⟨-, rest, closed, -, rfl⟩
    next => exact ⟨_, by simp, after?_eq_some_iff.1 opened⟩
    next => exact ⟨_, by simp [closing], after?_eq_some_iff.1 closed⟩

def wrapperTags (tag text : Text) : List DyckStep :=
  ((wrapperForm tag).pieces none text).values

def IsBalanced (tag text : Text) : Prop :=
  ∃ word : DyckWord, word.toList = wrapperTags tag text

def IsEnclosed (tag text : Text) : Prop :=
  ∃ word : DyckWord, word.toList = wrapperTags tag text ∧ word ≠ 0 ∧
    word.firstReturn + 1 = word.toList.length

theorem firstReturn_eq_iff {word : DyckWord} :
    word ≠ 0 ∧ word.firstReturn + 1 = word.toList.length ↔ ∃ inner : DyckWord, word = inner.nest := by
  constructor
  next =>
    rintro ⟨nonempty, last⟩
    have outside : word.outsidePart = 0 := by
      rw [← DyckWord.toList_eq_nil, DyckWord.outsidePart, dif_neg nonempty]
      exact List.drop_of_length_le last.ge
    have whole := DyckWord.nest_insidePart_add_outsidePart nonempty
    rw [outside, add_zero] at whole
    exact ⟨word.insidePart, whole.symm⟩
  next =>
    rintro ⟨inner, rfl⟩
    refine ⟨DyckWord.nest_ne_zero, ?_⟩
    rw [DyckWord.firstReturn_nest]
    simp [DyckWord.nest]

theorem toList_nest (word : DyckWord) : word.nest.toList = U :: (word.toList ++ [D]) := rfl

variable {tag text inner : Text}

theorem isBalanced_iff : IsBalanced tag text ↔
    (wrapperTags tag text).count U = (wrapperTags tag text).count D ∧
      ∀ front ∈ (wrapperTags tag text).inits, front.count D ≤ front.count U := by
  constructor
  next =>
    rintro ⟨word, same⟩
    rw [← same]
    refine ⟨word.count_U_eq_count_D, ?_⟩
    intro front member
    rw [List.prefix_iff_eq_take.1 ((List.mem_inits _ _).1 member)]
    exact word.count_D_le_count_U _
  next =>
    rintro ⟨even, nested⟩
    have within (i : Nat) := nested _ ((List.mem_inits _ _).2 (List.take_prefix i _))
    exact ⟨⟨wrapperTags tag text, even, within⟩, rfl⟩

instance (tag text : Text) : Decidable (IsBalanced tag text) :=
  decidable_of_iff _ isBalanced_iff.symm

section Tag

variable (opened : '<' ∉ tag) (closed : '>' ∉ tag)

include opened closed

theorem isBracketed_wrapperForm : (wrapperForm tag).IsBracketed fun inner step =>
    step = U ∧ inner = tag ∨ step = D ∧ inner = '/' :: tag where
  plain := by
    rintro inner step (⟨-, rfl⟩ | ⟨-, rfl⟩) <;> simp [opened, closed]
  read_iff := by
    intro previous text step rest
    -- The closing tag has its slash where the opening tag has its name.
    have apart (rest : Text) : after? (opening tag ++ ['>']) (closing tag ++ rest) = none := by
      rw [after?_eq_none_iff]
      rintro ⟨behind, same⟩
      have names : tag ++ '>' :: behind = ('/' :: tag) ++ '>' :: rest := by
        simpa [opening, closing] using same
      have slash : '>' ∉ '/' :: tag := by simp [closed]
      have equal := congrArg (List.takeWhile (· != '>')) names
      rw [takeWhile_append_cons closed, takeWhile_append_cons slash] at equal
      simpa using congrArg List.length equal
    simp only [wrapperForm, Option.or_eq_some_iff, Option.map_eq_some_iff, Option.map_eq_none_iff,
      Prod.mk.injEq]
    constructor
    next =>
      rintro (⟨rest, found, rfl, rfl⟩ | ⟨-, rest, found, rfl, rfl⟩)
      next => exact ⟨tag, .inl ⟨rfl, rfl⟩, by simp [after?_eq_some_iff.1 found, opening]⟩
      next => exact ⟨'/' :: tag, .inr ⟨rfl, rfl⟩, by simp [after?_eq_some_iff.1 found, closing]⟩
    next =>
      rintro ⟨inner, ⟨rfl, rfl⟩ | ⟨rfl, rfl⟩, rfl⟩
      next => exact .inl ⟨rest, after?_eq_some_iff.2 (by simp [opening]), rfl, rfl⟩
      next =>
        have whole : '<' :: ('/' :: tag ++ '>' :: rest) = closing tag ++ rest := by simp [closing]
        rw [whole]
        exact .inr ⟨apart rest, rest, after?_append _ _, rfl, rfl⟩

theorem wrapperTags_append {first second : Text} (apart : Apart first second) :
    wrapperTags tag (first ++ second) = wrapperTags tag first ++ wrapperTags tag second := by
  rw [wrapperTags, (isBracketed_wrapperForm opened closed).pieces_append apart none none,
    Pieces.values_append]
  rfl

theorem wrapperTags_of_not_mem (absent : '<' ∉ text ∨ '>' ∉ text) : wrapperTags tag text = [] := by
  rw [wrapperTags, (isBracketed_wrapperForm opened closed).pieces_of_not_mem absent]
  rfl

theorem wrapperTags_trim (text : Text) : wrapperTags tag (trim text) = wrapperTags tag text := by
  obtain ⟨front, back, whole, padded, padded'⟩ := exists_padding_around_trim text
  have solid : isPadding '<' = false ∧ isPadding '>' = false := by decide
  have opens : '<' ∉ front := fun member => by simp [padded _ member] at solid
  have closes : '>' ∉ back := fun member => by simp [padded' _ member] at solid
  conv_rhs => rw [whole]
  rw [wrapperTags_append opened closed (.of_not_mem_open opens _),
    wrapperTags_append opened closed (.of_not_mem_close _ closes),
    wrapperTags_of_not_mem opened closed (.inl opens),
    wrapperTags_of_not_mem opened closed (.inr closes), List.nil_append, List.append_nil]

theorem wrapperTags_single {step : DyckStep}
    (told : step = U ∧ inner = tag ∨ step = D ∧ inner = '/' :: tag) :
    wrapperTags tag ('<' :: (inner ++ ['>'])) = [step] := by
  rw [wrapperTags, (isBracketed_wrapperForm opened closed).pieces_single told none]
  rfl

theorem wrapperTags_wrapped (inner : Text) :
    wrapperTags tag (opening tag ++ '>' :: inner ++ closing tag) =
      U :: (wrapperTags tag inner ++ [D]) := by
  have whole : opening tag ++ '>' :: inner ++ closing tag =
      (opening tag ++ ['>']) ++ (inner ++ closing tag) := by simp
  have first : wrapperTags tag (opening tag ++ ['>']) = [U] :=
    wrapperTags_single opened closed (.inl ⟨rfl, rfl⟩)
  have last : wrapperTags tag (closing tag) = [D] :=
    wrapperTags_single opened closed (.inr ⟨rfl, rfl⟩)
  have apart : Apart inner (closing tag) := .of_opened inner _
  rw [whole, wrapperTags_append opened closed (.of_closed _ _),
    wrapperTags_append opened closed apart, first, last]
  rfl

theorem isBalanced_iff_isEnclosed (inner : Text) :
    IsBalanced tag inner ↔ IsEnclosed tag (opening tag ++ '>' :: inner ++ closing tag) := by
  rw [IsEnclosed, wrapperTags_wrapped opened closed]
  constructor
  next =>
    rintro ⟨word, same⟩
    exact ⟨word.nest, by rw [toList_nest, same], firstReturn_eq_iff.2 ⟨word, rfl⟩⟩
  next =>
    rintro ⟨word, same, enclosed⟩
    obtain ⟨inside, rfl⟩ := firstReturn_eq_iff.1 enclosed
    rw [toList_nest] at same
    exact ⟨inside, List.append_cancel_right (List.cons.inj same).2⟩

end Tag

theorem wrapped?_eq_some_iff (trimmed : trim text = text) :
    wrapped? tag text = some inner ↔ text = opening tag ++ '>' :: inner ++ closing tag := by
  simp only [wrapped?, Option.bind_eq_bind, Option.bind_eq_some_iff, after?_eq_some_iff,
    Option.or_eq_some_iff, upTo?_eq_some_iff]
  constructor
  next =>
    rintro ⟨inside, rfl, rfl | ⟨-, rfl⟩⟩
    next => simp
    next =>
      have concat : trim (opening tag ++ ['>'] ++ (inner ++ closing tag) ++ ['\n']) =
          opening tag ++ ['>'] ++ (inner ++ closing tag) ++ ['\n'] := by simpa using trimmed
      have solid := isPadding_of_trim_concat concat
      have padded : isPadding '\n' = true := by decide
      simp [padded] at solid
  next =>
    rintro rfl
    exact ⟨inner ++ closing tag, by simp, .inl rfl⟩

theorem unwrap_of_wrapped (trimmed : trim text = text)
    (whole : text = opening tag ++ '>' :: inner ++ closing tag) : unwrap tag text = trim inner := by
  rw [unwrap, (wrapped?_eq_some_iff trimmed).2 whole]

theorem unwrap_ne_iff (trimmed : trim text = text) :
    unwrap tag text ≠ text ↔ ∃ inner, text = opening tag ++ '>' :: inner ++ closing tag := by
  constructor
  next =>
    intro changed
    cases found : wrapped? tag text with
    | none => simp [unwrap, found] at changed
    | some inner => exact ⟨inner, (wrapped?_eq_some_iff trimmed).1 found⟩
  next =>
    rintro ⟨inner, whole⟩ same
    rw [unwrap_of_wrapped trimmed whole] at same
    have shorter := (trim_isInfix inner).length_le
    rw [same, whole] at shorter
    simp only [opening, closing, List.length_append, List.length_cons] at shorter
    omega

/-- A trimmed text that is unwrapped loses its first and its last wrapper tag and no other. Its
brackets stay balanced just if these two belong together. -/
theorem unwrap_one_pair (opened : '<' ∉ tag) (closed : '>' ∉ tag) (trimmed : trim text = text) :
    (unwrap tag text ≠ text ↔ ∃ inner, text = opening tag ++ '>' :: inner ++ closing tag) ∧
      (unwrap tag text ≠ text →
        wrapperTags tag text = U :: (wrapperTags tag (unwrap tag text) ++ [D]) ∧
          (IsBalanced tag (unwrap tag text) ↔ IsEnclosed tag text)) := by
  refine ⟨unwrap_ne_iff trimmed, ?_⟩
  intro differs
  obtain ⟨inner, whole⟩ := (unwrap_ne_iff trimmed).1 differs
  rw [unwrap_of_wrapped trimmed whole, IsBalanced, wrapperTags_trim opened closed, ← IsBalanced,
    whole]
  exact ⟨wrapperTags_wrapped opened closed inner, isBalanced_iff_isEnclosed opened closed inner⟩

theorem unwrap_one_pair_of_nested :
    let tag : Text := "template"
    let text : Text := "<template> <template>a</template><template/></p></template>"
    ('<' ∉ tag ∧ '>' ∉ tag ∧ trim text = text) ∧
      (∃ inner, text = opening tag ++ '>' :: inner ++ closing tag) ∧
      wrapperTags tag text = [U, U, D, D] ∧ IsEnclosed tag text := by
  intro tag text
  have trimmed : trim text = text := by decide +kernel
  have opened : '<' ∉ tag := by decide
  have closed : '>' ∉ tag := by decide
  have pair := unwrap_one_pair opened closed trimmed
  have changed : unwrap tag text ≠ text := by decide +kernel
  have inside : wrapperTags tag (unwrap tag text) = [U, D] := by decide +kernel
  have balanced : IsBalanced tag (unwrap tag text) := by decide +kernel
  obtain ⟨tags, enclosed⟩ := pair.2 changed
  rw [inside] at tags
  exact ⟨⟨opened, closed, trimmed⟩, pair.1.1 changed, tags, enclosed.1 balanced⟩

theorem unwrap_two_in_a_row :
    let tag : Text := "template"
    let text : Text := "<template>a</template><template>b</template>"
    (trim text = text ∧ IsBalanced tag text) ∧ ¬ IsEnclosed tag text ∧
      unwrap tag text = ("a</template><template>b" : String) ∧
      ¬ IsBalanced tag (unwrap tag text) := by
  intro tag text
  have apart : ¬ IsEnclosed tag text := by
    rintro ⟨word, same, -, last⟩
    rw [DyckWord.firstReturn, same] at last
    revert last
    decide +kernel
  exact ⟨by decide +kernel, apart, by decide +kernel, by decide +kernel⟩

end Inlay.Markup
