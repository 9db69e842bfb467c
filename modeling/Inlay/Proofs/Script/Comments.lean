import Inlay.Proofs.Text.Cut
import Inlay.Proofs.Text.Search
import Inlay.Script.Declaration
import Mathlib.Data.List.DropRight

set_option autoImplicit false

namespace Inlay.Script

open Text

theorem mem_declaredNames_iff {name code : Text} :
    name ∈ declaredNames code ↔ ∃ form : Form, name ∈ form.names (Comment.erase code) := by
  simp only [declaredNames, List.mem_flatMap, List.mem_cons, List.not_mem_nil, or_false]
  constructor
  next =>
    rintro ⟨form, -, member⟩
    exact ⟨form, member⟩
  next =>
    rintro ⟨form, member⟩
    exact ⟨form, by cases form <;> simp, member⟩

namespace Comment

def Begins (previous : Option Char) (text : Text) : Prop :=
  (∃ inside rest, text = '/' :: '*' :: (inside ++ '*' :: '/' :: rest)) ∨
    (['/', '/'] <+: text ∧ ∀ c ∈ previous, protects c = false)

def Occurs (text : Text) : Prop :=
  ∃ front back, text = front ++ back ∧ Begins front.getLast? back

structure IsRun (text front run back : Text) : Prop where
  whole : text = front ++ (run ++ back)
  slashes : ∀ c ∈ run, c = '/'
  long : 2 ≤ run.length
  before : '/' ∉ front.getLast?
  behind : '/' ∉ back.head?

def Guarded (front : Text) : Prop :=
  front.getLast?.any protects = true

def AtLineEnd (text : Text) : Prop :=
  ∀ c ∈ text.head?, c = '\n'

variable {text rest kept front run back : Text} {previous : Option Char} {c : Char}

section Reading

theorem block?_eq_none_iff : block? text = none ↔
    ¬ ∃ inside rest, text = '/' :: '*' :: (inside ++ '*' :: '/' :: rest) := by
  have marked (inside : Text) : ['*', '/'] <:+: inside ↔
      ∃ front back, inside = front ++ '*' :: '/' :: back := by
    constructor
    next =>
      rintro ⟨front, back, rfl⟩
      exact ⟨front, back, by simp⟩
    next =>
      rintro ⟨front, back, rfl⟩
      exact ⟨front, back, by simp⟩
  unfold block?
  split
  next inside => simp [cut?_eq_none_iff, marked]
  next other =>
    refine iff_of_true rfl ?_
    rintro ⟨inside, rest, rfl⟩
    exact other _ rfl

theorem exists_comment_of_block? (found : block? text = some rest) :
    ∃ inside, text = '/' :: '*' :: (inside ++ '*' :: '/' :: rest) := by
  unfold block? at found
  split at found
  next text =>
    obtain ⟨⟨inside, behind⟩, cut, rfl⟩ := Option.map_eq_some_iff.1 found
    exact ⟨inside, by simpa using eq_of_cut? cut⟩
  next => cases found

theorem line?_eq_none_iff : line? text = none ↔ ¬ ['/', '/'] <+: text := by
  unfold line?
  split
  next comment => simp
  next other =>
    refine iff_of_true rfl ?_
    rintro ⟨comment, rfl⟩
    exact other comment rfl

theorem read_eq_none_iff : form.read previous (c :: text) = none ↔
    block? (c :: text) = none ∧ (protects c = false → ¬ ['/', '/'] <+: text) ∧
      (atLineStart previous = true → ¬ ['/', '/'] <+: c :: text) := by
  simp only [← line?_eq_none_iff]
  cases block : block? (c :: text) with
  | some rest => simp [form, read?, block]
  | none =>
    by_cases protect : protects c = true
    next => by_cases start : atLineStart previous = true <;> simp [form, read?, unprotected?, *]
    next =>
      cases behind : line? text with
      | some rest => simp [form, read?, unprotected?, *]
      | none => by_cases start : atLineStart previous = true <;> simp [form, read?, unprotected?, *]

theorem exists_comment_of_line? (found : line? text = some rest) :
    ∃ comment, text = '/' :: '/' :: (comment ++ rest) ∧ AtLineEnd rest := by
  unfold line? at found
  split at found
  next comment =>
    cases found
    refine ⟨comment.takeWhile (· != '\n'), by rw [List.takeWhile_append_dropWhile], ?_⟩
    intro c first
    have stops := List.head?_dropWhile_not (· != '\n') comment
    rw [Option.mem_def.1 first] at stops
    simpa using stops
  next => cases found

-- A block comment goes entirely, a line comment up to the line's end; a character that is not
-- protecting it may be read with it.
theorem cases_of_read (found : form.read previous text = some (kept, rest)) :
    (block? text = some rest ∧ kept = []) ∨
      ∃ comment, text = kept ++ '/' :: '/' :: (comment ++ rest) ∧ AtLineEnd rest ∧
        ((∃ c, kept = [c]) ∨ kept = [] ∧ atLineStart previous = true) := by
  unfold form at found
  simp only [read?] at found
  split at found
  next rest block =>
    cases found
    exact .inl ⟨block, rfl⟩
  next =>
    unfold unprotected? at found
    split at found
    next => cases found
    next c text =>
      split at found
      next rest behind =>
        cases found
        split at behind
        next => cases behind
        next =>
          obtain ⟨comment, rfl, ending⟩ := exists_comment_of_line? behind
          exact .inr ⟨comment, rfl, ending, .inl ⟨_, rfl⟩⟩
      next =>
        split at found
        next start =>
          obtain ⟨_, here, same⟩ := Option.map_eq_some_iff.1 found
          cases same
          obtain ⟨comment, whole, ending⟩ := exists_comment_of_line? here
          exact .inr ⟨comment, whole, ending, .inr ⟨rfl, start⟩⟩
        next => cases found

end Reading

section Erasing

theorem occurs_of_read (found : form.read front.getLast? back ≠ none) : Occurs (front ++ back) := by
  cases back with
  | nil => exact absurd (form.read_nil _) found
  | cons c back =>
    rw [Ne, read_eq_none_iff] at found
    by_cases block : block? (c :: back) = none
    case neg => exact ⟨front, c :: back, rfl, .inl (not_not.1 (mt block?_eq_none_iff.2 block))⟩
    by_cases behind : protects c = false ∧ ['/', '/'] <+: back
    next => exact ⟨front ++ [c], back, by simp, .inr ⟨behind.2, by simpa using behind.1⟩⟩
    next =>
      obtain ⟨start, slashes⟩ : atLineStart front.getLast? = true ∧ ['/', '/'] <+: c :: back := by
        by_contra other
        exact found ⟨block, not_and.1 behind, not_and.1 other⟩
      refine ⟨front, c :: back, rfl, .inr ⟨slashes, fun d last => ?_⟩⟩
      rw [Option.mem_def.1 last] at start
      obtain rfl : d = '\n' := by simpa [atLineStart] using start
      rfl

theorem exists_read_of_occurs (occurs : Occurs text) :
    ∃ front back, text = front ++ back ∧ form.read front.getLast? back ≠ none := by
  obtain ⟨front, back, rfl, block | ⟨⟨rest, rfl⟩, unprotected⟩⟩ := occurs
  next =>
    refine ⟨front, back, rfl, ?_⟩
    obtain ⟨inside, rest, rfl⟩ := block
    rw [Ne, read_eq_none_iff, block?_eq_none_iff]
    exact fun missing => missing.1 ⟨inside, rest, rfl⟩
  next =>
    -- A line comment is found from the character before it, or at the start of the text.
    rcases List.eq_nil_or_concat front with rfl | ⟨front, c, rfl⟩
    next =>
      refine ⟨[], _, rfl, ?_⟩
      rw [Ne, List.cons_append, read_eq_none_iff]
      exact fun missing => missing.2.2 rfl ⟨rest, rfl⟩
    next =>
      refine ⟨front, c :: (['/', '/'] ++ rest), by simp, ?_⟩
      rw [Ne, read_eq_none_iff]
      exact fun missing => missing.2.1 (unprotected c (by simp)) ⟨rest, rfl⟩

theorem occurs_iff : Occurs text ↔ (form.pieces none text).values ≠ [] := by
  rw [Ne, Recogniser.values_eq_nil_iff_missing]
  simp only [Option.or_none]
  constructor
  next =>
    intro occurs missing
    obtain ⟨front, back, rfl, found⟩ := exists_read_of_occurs occurs
    exact found (missing front back rfl)
  next =>
    intro some_find
    obtain ⟨front, back, rfl, found⟩ : ∃ front back, text = front ++ back ∧
        form.read front.getLast? back ≠ none := by simpa using some_find
    exact occurs_of_read found

-- What is kept of a comment is shorter than the comment.
theorem length_of_read (found : form.read previous text = some (kept, rest)) :
    kept.length + rest.length < text.length := by
  rcases cases_of_read found with ⟨block, rfl⟩ | ⟨comment, rfl, -⟩
  next =>
    obtain ⟨inside, rfl⟩ := exists_comment_of_block? block
    simp only [List.length_append, List.length_cons, List.length_nil]
    omega
  next =>
    simp only [List.length_append, List.length_cons]
    omega

theorem length_write_le (previous : Option Char) (text : Text) :
    ((form.pieces previous text).write id).length + (form.pieces previous text).values.length ≤
      text.length := by
  fun_induction Recogniser.pieces form previous text with
  | case1 => simp [Pieces.values]
  | case2 previous c text kept rest found _ ih =>
    have := length_of_read found
    simp only [Pieces.write_find, Pieces.values_find, List.length_append, List.length_cons, id] at this ⊢
    omega
  | case3 previous c text missing ih =>
    simp only [Pieces.write_skip, Pieces.values_skip, List.length_cons]
    omega

theorem erase_eq_self_iff : erase text = text ↔ ¬ Occurs text := by
  rw [occurs_iff, not_not]
  constructor
  next =>
    intro same
    have shorter := length_write_le none text
    rw [← erase, same] at shorter
    exact List.length_eq_zero_iff.1 (by omega)
  next =>
    intro nothing
    rw [erase, Recogniser.pieces_of_values nothing, Pieces.write_nil]

theorem erase_of_plain (line : ¬ ['/', '/'] <:+: text) (block : ¬ ['/', '*'] <:+: text) :
    erase text = text := by
  rw [erase_eq_self_iff]
  rintro ⟨front, back, rfl, ⟨inside, rest, rfl⟩ | ⟨⟨rest, rfl⟩, -⟩⟩
  next => exact block ⟨front, inside ++ '*' :: '/' :: rest, by simp⟩
  next => exact line ⟨front, rest, by simp⟩

end Erasing

section Slashes

instance (front : Text) : Decidable (Guarded front) :=
  inferInstanceAs (Decidable (_ = true))

theorem not_guarded_iff : ¬ Guarded front ↔ ∀ c ∈ front.getLast?, protects c = false := by
  unfold Guarded
  cases front.getLast? <;> simp

instance (text front run back : Text) : Decidable (IsRun text front run back) :=
  -- Few texts are slashes only, so that is asked first.
  decidable_of_iff (run.all (decide <| · = '/') = true ∧ 2 ≤ run.length ∧ '/' ∉ front.getLast? ∧
      '/' ∉ back.head? ∧ text = front ++ (run ++ back)) <| by
    rw [List.all_eq_true]
    simp only [decide_eq_true_eq]
    exact ⟨fun ⟨slashes, long, before, behind, whole⟩ => ⟨whole, slashes, long, before, behind⟩,
      fun ⟨whole, slashes, long, before, behind⟩ => ⟨slashes, long, before, behind, whole⟩⟩

theorem forall_isRun_iff {p : Text → Text → Prop} :
    (∀ front run back, IsRun text front run back → p front run) ↔
      ∀ n ∈ List.range (text.length + 1), ∀ m ∈ List.range (text.length + 1),
        IsRun text (text.take n) ((text.drop n).take m) (text.drop (n + m)) →
          p (text.take n) ((text.drop n).take m) := by
  constructor
  next => exact fun all n _ m _ => all _ _ _
  next =>
    intro all front run back isRun
    have size := congrArg List.length isRun.whole
    rw [List.length_append, List.length_append] at size
    have taken : text.take front.length = front := by rw [isRun.whole, List.take_left]
    have dropped : text.drop front.length = run ++ back := by rw [isRun.whole, List.drop_left]
    have later : text.drop (front.length + run.length) = back := by
      rw [← List.drop_drop, dropped, List.drop_left]
    have here := all front.length (List.mem_range.2 (by omega)) run.length
      (List.mem_range.2 (by omega))
    rw [taken, dropped, later, List.take_left] at here
    exact here isRun

instance {p : Text → Text → Prop} [∀ front run, Decidable (p front run)] :
    Decidable (∀ front run back, IsRun text front run back → p front run) :=
  decidable_of_iff' _ forall_isRun_iff

theorem exists_isRun (front rest : Text) : ∃ first more last back, front = first ++ more ∧
    IsRun (front ++ '/' :: '/' :: rest) first (more ++ '/' :: '/' :: last) back := by
  let isSlash (c : Char) : Bool := c == '/'
  have split := List.rdropWhile_append_rtakeWhile (p := isSlash) (l := front)
  refine ⟨front.rdropWhile isSlash, front.rtakeWhile isSlash, rest.takeWhile isSlash,
    rest.dropWhile isSlash, split.symm, ?_⟩
  refine ⟨?_, ?_, ?_, ?_, ?_⟩
  next =>
    rw [← List.append_assoc, ← List.append_assoc, split, List.append_assoc, List.cons_append,
      List.cons_append, List.takeWhile_append_dropWhile]
  next =>
    intro c member
    rcases List.mem_append.1 member with early | late
    next => simpa [isSlash] using List.mem_rtakeWhile_imp early
    next =>
      rw [List.mem_cons, List.mem_cons] at late
      rcases late with rfl | rfl | late
      next => rfl
      next => rfl
      next => simpa [isSlash] using List.all_eq_true.1 List.all_takeWhile c late
  next =>
    simp only [List.length_append, List.length_cons]
    omega
  next =>
    intro last
    have nonempty : front.rdropWhile isSlash ≠ [] := by
      intro empty
      simp [empty] at last
    rw [List.getLast?_eq_some_getLast nonempty, Option.mem_def, Option.some.injEq] at last
    exact List.rdropWhile_last_not isSlash front nonempty (by simp [isSlash, last])
  next =>
    intro first
    have stops := List.head?_dropWhile_not isSlash rest
    rw [Option.mem_def.1 first] at stops
    exact absurd stops (by simp [isSlash])

theorem occurs_of_isRun (isRun : IsRun text front run back)
    (exposed : ¬ (Guarded front ∧ run.length = 2)) : Occurs text := by
  obtain ⟨rfl, slashes, long, -, -⟩ := isRun
  match run, long with
  | first :: second :: run, _ =>
    obtain rfl := slashes first (by simp)
    obtain rfl := slashes second (by simp)
    by_cases guarded : Guarded front
    case neg => exact ⟨front, _, rfl, .inr ⟨⟨run ++ back, rfl⟩, not_guarded_iff.1 guarded⟩⟩
    -- A third slash is the second one of two that are not protected.
    cases run with
    | nil => exact absurd ⟨guarded, rfl⟩ exposed
    | cons third run =>
      obtain rfl := slashes third (by simp)
      refine ⟨front ++ ['/'], '/' :: '/' :: (run ++ back), by simp, .inr ⟨⟨run ++ back, rfl⟩, ?_⟩⟩
      simp [protects]

theorem guarded_of_not_occurs (absent : ¬ Occurs text) (isRun : IsRun text front run back) :
    Guarded front ∧ run.length = 2 := by
  by_contra exposed
  exact absent (occurs_of_isRun isRun exposed)

theorem not_occurs_of_guarded (plain : ¬ ['/', '*'] <:+: text)
    (guarded : ∀ front run back, IsRun text front run back → Guarded front ∧ run.length = 2) :
    ¬ Occurs text := by
  rintro ⟨front, back, rfl, ⟨inside, rest, rfl⟩ | ⟨⟨rest, rfl⟩, unprotected⟩⟩
  next => exact plain ⟨front, inside ++ '*' :: '/' :: rest, by simp⟩
  next =>
    -- The run has two slashes only, so it is what stands there.
    obtain ⟨first, more, last, behind, rfl, isRun⟩ := exists_isRun front rest
    obtain ⟨kept, size⟩ := guarded _ _ _ isRun
    have alone : more = [] := by
      simp only [List.length_append, List.length_cons] at size
      exact List.length_eq_zero_iff.1 (by omega)
    subst alone
    rw [List.append_nil] at unprotected
    exact not_guarded_iff.2 unprotected kept

end Slashes

/-- A text without the mark of a block comment stays as it is just when each run of slashes in it
has two of them and a colon or a backslash before them. Then all that is declared in it counts. -/
theorem erase_guarded (plain : ¬ ['/', '*'] <:+: text) :
    (erase text = text ↔
      ∀ front run back, IsRun text front run back → Guarded front ∧ run.length = 2) ∧
    (erase text = text → ∀ name, name ∈ declaredNames text ↔ ∃ form, name ∈ Form.names form text) := by
  constructor
  next =>
    rw [erase_eq_self_iff]
    exact ⟨fun absent _ _ _ => guarded_of_not_occurs absent, not_occurs_of_guarded plain⟩
  next =>
    intro same name
    rw [mem_declaredNames_iff, same]

theorem erase_guarded_of_addresses :
    let code : Text := "a:// let b; \\// var c = 1 / 2;\nlet d = 'https://e';"
    ¬ ['/', '*'] <:+: code ∧ erase code = code ∧
      ∀ name ∈ ([['b'], ['c'], ['d']] : List Text), name ∈ declaredNames code := by
  intro code
  have plain : ¬ ['/', '*'] <:+: code := by decide +kernel
  have guarded : ∀ front run back, IsRun code front run back → Guarded front ∧ run.length = 2 := by
    decide +kernel
  have same : erase code = code := (erase_guarded plain).1.2 guarded
  have named : ∀ name ∈ ([['b'], ['c'], ['d']] : List Text), name ∈ Form.names .name code := by
    decide +kernel
  exact ⟨plain, same, fun name member => ((erase_guarded plain).2 same name).2 ⟨.name, named name member⟩⟩

theorem erase_long_run :
    let code : Text := "let a = 'file:///b'; let c = 1;"
    ¬ ['/', '*'] <:+: code ∧ (∀ front run back, IsRun code front run back → Guarded front) ∧
      erase code ≠ code ∧ ['c'] ∈ Form.names .name code ∧ ['c'] ∉ declaredNames code := by
  intro code
  have guarded : ∀ front run back, IsRun code front run back →
      (fun front _ => Guarded front) front run := by
    decide +kernel
  exact ⟨by decide +kernel, guarded, by decide +kernel, by decide +kernel, by decide +kernel⟩

end Comment
end Inlay.Script
