import Inlay.Proofs.Text.Search
import Inlay.Proofs.Text.Seam

set_option autoImplicit false

namespace Inlay.Text

variable {first second front back text : Text}

def Apart (first second : Text) : Prop :=
  ∀ front inner more rest, first = front ++ '<' :: inner → second = more ++ '>' :: rest →
    '<' ∈ inner ++ more ∨ '>' ∈ inner ++ more

namespace Apart

theorem of_suffix (suffix : back <:+ first) (apart : Apart first second) : Apart back second := by
  obtain ⟨front, rfl⟩ := suffix
  rintro before inner more rest rfl behind
  exact apart (front ++ before) inner more rest (by simp) behind

theorem of_opened (first rest : Text) : Apart first ('<' :: rest) := by
  rintro front inner more rest' - behind
  cases more with
  | nil => simp at behind
  | cons c more =>
    obtain ⟨rfl, -⟩ := List.cons.inj behind
    simp

theorem of_closed (front second : Text) : Apart (front ++ ['>']) second := by
  rintro before inner more rest whole -
  rcases List.eq_nil_or_concat inner with rfl | ⟨inner, c, rfl⟩
  next => simpa using (List.append_inj' whole rfl).2
  next =>
    have last : front ++ ['>'] = (before ++ '<' :: inner) ++ [c] := by simpa using whole
    obtain ⟨-, same⟩ := List.append_inj' last rfl
    simp [List.singleton_inj.1 same.symm]

theorem of_not_mem_open (absent : '<' ∉ first) (second : Text) : Apart first second := by
  rintro front inner more rest rfl -
  simp at absent

theorem of_not_mem_close (first : Text) (absent : '>' ∉ second) : Apart first second := by
  rintro front inner more rest - rfl
  simp at absent

end Apart

namespace Pieces

variable {A : Type}

def append (first second : Pieces A) : Pieces A :=
  match second.parts with
  | [] => ⟨first.parts, first.tail ++ second.tail⟩
  | (gap, value) :: parts => ⟨first.parts ++ (first.tail ++ gap, value) :: parts, second.tail⟩

theorem nil_append (pieces : Pieces A) : append ⟨[], []⟩ pieces = pieces := by
  obtain ⟨parts, tail⟩ := pieces
  cases parts <;> rfl

theorem find_append (value : A) (first second : Pieces A) :
    (first.find value).append second = (first.append second).find value := by
  obtain ⟨parts, tail⟩ := second
  cases parts <;> rfl

theorem skip_append (c : Char) (first second : Pieces A) :
    (first.skip c).append second = (first.append second).skip c := by
  obtain ⟨parts, tail⟩ := first
  obtain ⟨parts', tail'⟩ := second
  cases parts <;> cases parts' <;> rfl

theorem values_append (first second : Pieces A) :
    (first.append second).values = first.values ++ second.values := by
  obtain ⟨parts, tail⟩ := second
  cases parts <;> simp [append, values]

theorem write_append (render : A → Text) (first second : Pieces A) :
    (first.append second).write render = first.write render ++ second.write render := by
  obtain ⟨parts, tail⟩ := second
  cases parts <;> simp [append, write]

theorem joinsNo_append {mark : Text} {render : A → Text} {first second : Pieces A}
    (joins : JoinsNo mark ((first.append second).texts render)) :
    JoinsNo mark (first.texts render) ∧ JoinsNo mark (second.texts render) := by
  obtain ⟨parts, tail⟩ := second
  cases parts with
  | nil => exact joins.of_append_cons
  | cons part parts =>
    obtain ⟨gap, value⟩ := part
    have split : texts render (first.append ⟨(gap, value) :: parts, tail⟩) =
        first.parts.flatMap (fun part => [part.1, render part.2]) ++
          (first.tail ++ gap) :: render value :: texts render ⟨parts, tail⟩ := by
      simp [append, texts]
    exact (split ▸ joins).of_append_cons

end Pieces

namespace Recogniser

variable {A : Type} {form : Recogniser A} {means : Text → A → Prop}

structure IsBracketed (form : Recogniser A) (means : Text → A → Prop) : Prop where
  plain : ∀ {inner value}, means inner value → '<' ∉ inner ∧ '>' ∉ inner
  read_iff : ∀ {previous text value rest}, form.read previous text = some (value, rest) ↔
    ∃ inner, means inner value ∧ text = '<' :: (inner ++ '>' :: rest)

namespace IsBracketed

variable (bracketed : form.IsBracketed means)

include bracketed

theorem pieces_eq (previous other : Option Char) (text : Text) :
    form.pieces previous text = form.pieces other text := by
  apply form.pieces_congr
  apply Option.ext
  rintro ⟨value, rest⟩
  rw [bracketed.read_iff, bracketed.read_iff]

theorem read_append (apart : Apart text second) (nonempty : text ≠ []) (previous : Option Char) :
    form.read previous (text ++ second) =
      (form.read previous text).map fun (value, rest) => (value, rest ++ second) := by
  cases found : form.read previous text with
  | some result =>
    obtain ⟨value, rest⟩ := result
    obtain ⟨inner, told, rfl⟩ := bracketed.read_iff.1 found
    exact bracketed.read_iff.2 ⟨inner, told, by simp⟩
  | none =>
    rw [Option.map_none, Option.eq_none_iff_forall_ne_some]
    rintro ⟨value, rest⟩ longer
    obtain ⟨inner, told, whole⟩ := bracketed.read_iff.1 longer
    obtain ⟨closed, opened⟩ := bracketed.plain told
    -- The closing bracket stands in the second text, or the find is one of the first.
    have crossing (more : Text) (same : '<' :: inner = text ++ more)
        (behind : second = more ++ '>' :: rest) : False := by
      obtain ⟨c, text, rfl⟩ := List.exists_cons_of_ne_nil nonempty
      obtain ⟨rfl, rfl⟩ := List.cons.inj same
      rcases apart [] text more rest rfl behind with inside | inside
      next => exact closed inside
      next => exact opened inside
    rw [← List.cons_append, List.append_eq_append_iff] at whole
    rcases whole with ⟨more, same, behind⟩ | ⟨ending, same, behind⟩
    next => exact crossing more same behind
    next =>
      cases ending with
      | nil => exact crossing [] (by simpa using same.symm) (by simpa using behind.symm)
      | cons c ending =>
        obtain ⟨rfl, -⟩ := List.cons.inj behind
        have here : form.read previous text = some (value, ending) :=
          bracketed.read_iff.2 ⟨inner, told, same⟩
        rw [found] at here
        cases here

theorem pieces_append (apart : Apart first second) (previous other : Option Char) :
    form.pieces previous (first ++ second) =
      (form.pieces previous first).append (form.pieces other second) := by
  fun_induction Recogniser.pieces form previous first with
  | case1 previous => rw [Pieces.nil_append, List.nil_append, bracketed.pieces_eq previous other]
  | case2 previous c text value rest found _ ih =>
    have longer := bracketed.read_append apart (List.cons_ne_nil c text) previous
    obtain ⟨inner, -, whole⟩ := bracketed.read_iff.1 found
    have suffix : rest <:+ c :: text := ⟨'<' :: inner ++ ['>'], by simp [whole]⟩
    rw [found, Option.map_some] at longer
    rw [form.pieces_of_read longer, Pieces.find_append, ← ih (apart.of_suffix suffix),
      bracketed.pieces_eq _ (lastRead (c :: text) rest)]
  | case3 previous c text missing ih =>
    have longer := bracketed.read_append apart (List.cons_ne_nil c text) previous
    rw [missing, Option.map_none, List.cons_append] at longer
    rw [List.cons_append, form.pieces_cons_of_none longer, Pieces.skip_append,
      ih (apart.of_suffix (List.suffix_cons c text))]

-- A text that lacks one of the brackets has no find.
theorem pieces_of_not_mem (absent : '<' ∉ text ∨ '>' ∉ text) (previous : Option Char) :
    form.pieces previous text = ⟨[], text⟩ := by
  induction text generalizing previous with
  | nil => exact form.pieces_nil previous
  | cons c text ih =>
    have missing : form.read previous (c :: text) = none := by
      rw [Option.eq_none_iff_forall_ne_some]
      rintro ⟨value, rest⟩ found
      obtain ⟨inner, -, whole⟩ := bracketed.read_iff.1 found
      simp [whole] at absent
    have later : '<' ∉ text ∨ '>' ∉ text := by
      simp only [List.mem_cons, not_or] at absent
      exact absent.imp And.right And.right
    rw [form.pieces_cons_of_none missing, ih later]
    rfl

theorem pieces_single {inner : Text} {value : A} (told : means inner value)
    (previous : Option Char) :
    form.pieces previous ('<' :: (inner ++ ['>'])) = ⟨[([], value)], []⟩ := by
  have found : form.read previous ('<' :: (inner ++ ['>'])) = some (value, []) :=
    bracketed.read_iff.2 ⟨inner, told, rfl⟩
  rw [form.pieces_of_read found, form.pieces_nil]
  rfl

theorem pieces_append_single {inner : Text} {value : A} (told : means inner value)
    (previous : Option Char) (gap rest : Text) :
    form.pieces previous (gap ++ (('<' :: (inner ++ ['>'])) ++ rest)) =
      (form.pieces previous gap).append ((form.pieces none rest).find value) := by
  have opened : Apart gap (('<' :: (inner ++ ['>'])) ++ rest) := .of_opened gap _
  have closed : Apart ('<' :: (inner ++ ['>'])) rest := .of_closed ('<' :: inner) rest
  rw [bracketed.pieces_append opened previous none, bracketed.pieces_append closed none none,
    bracketed.pieces_single told]
  generalize form.pieces none rest = pieces
  obtain ⟨parts, tail⟩ := pieces
  cases parts <;> rfl

theorem values_eq_nil_iff {previous : Option Char} : (form.pieces previous text).values = [] ↔
    ∀ inner value, means inner value → ¬ '<' :: (inner ++ ['>']) <:+: text := by
  constructor
  next =>
    rintro nothing inner value told ⟨front, back, rfl⟩
    rw [List.append_assoc, bracketed.pieces_append_single told, Pieces.values_append,
      Pieces.values_find] at nothing
    simp at nothing
  next =>
    intro absent
    induction text generalizing previous with
    | nil =>
      rw [form.pieces_nil]
      rfl
    | cons c text ih =>
      have missing : form.read previous (c :: text) = none := by
        rw [Option.eq_none_iff_forall_ne_some]
        rintro ⟨value, rest⟩ found
        obtain ⟨inner, told, whole⟩ := bracketed.read_iff.1 found
        exact absent inner value told ⟨[], rest, by simp [whole]⟩
      rw [form.pieces_cons_of_none missing, Pieces.values_skip]
      apply ih
      exact fun inner value told inside =>
        absent inner value told (List.infix_cons_iff.2 (.inr inside))

-- The search finds all there is: nothing is left in the gaps.
theorem values_of_mem_gaps {previous : Option Char} {gap : Text}
    (member : gap ∈ (form.pieces previous text).gaps) : (form.pieces none gap).values = [] := by
  fun_induction Recogniser.pieces form previous text generalizing gap with
  | case1 =>
    obtain rfl := List.mem_singleton.1 member
    rw [form.pieces_nil]
    rfl
  | case2 previous c text value rest found _ ih =>
    rcases List.mem_cons.1 member with rfl | later
    next =>
      rw [form.pieces_nil]
      rfl
    next => exact ih later
  | case3 previous c text missing ih =>
    obtain ⟨first, others, split, front⟩ := form.exists_gaps_eq_cons (some c) text
    rw [Pieces.gaps_skip, split] at member
    rw [split] at ih
    rcases List.mem_cons.1 member with rfl | later
    next =>
      rw [bracketed.values_eq_nil_iff]
      intro inner value told inside
      rcases List.infix_cons_iff.1 inside with begun | behind
      next =>
        -- A find at the front of the gap would be one at the front of the text.
        obtain ⟨rest, whole⟩ := begun.trans (List.cons_prefix_cons.2 ⟨rfl, front⟩)
        have found : form.read previous (c :: text) = some (value, rest) :=
          bracketed.read_iff.2 ⟨inner, told, by simp [← whole]⟩
        rw [missing] at found
        cases found
      next => exact bracketed.values_eq_nil_iff.1 (ih List.mem_cons_self) inner value told behind
    next => exact ih (List.mem_cons_of_mem _ later)

theorem pieces_write {render : A → Text} {split : Pieces A}
    (faithful : ∀ value ∈ split.values, ∃ inner, means inner value ∧
      render value = '<' :: (inner ++ ['>']))
    (plain : ∀ gap ∈ split.gaps, (form.pieces none gap).values = []) :
    form.pieces none (split.write render) = split := by
  obtain ⟨parts, tail⟩ := split
  induction parts with
  | nil => rw [Pieces.write_nil, pieces_of_values (plain tail (by simp [Pieces.gaps]))]
  | cons part parts ih =>
    obtain ⟨gap, value⟩ := part
    obtain ⟨here, later⟩ := Pieces.forall_gaps_cons.1 plain
    obtain ⟨⟨inner, told, written⟩, others⟩ := List.forall_mem_cons.1 faithful
    rw [Pieces.write_cons, written, bracketed.pieces_append_single told, pieces_of_values here,
      ih others later]
    simp [Pieces.append, Pieces.find]

end IsBracketed
end Recogniser
end Inlay.Text
