import Inlay.Proofs.Script.Comments
import Inlay.Proofs.Script.Reading
import Inlay.Proofs.Text.Split
import Inlay.Proofs.Text.Trim

set_option autoImplicit false

namespace Inlay.Script

open Text Markup

variable {text rest name body : Text} {form : Form}

section Names

theorem before_of_not_mem {mark : Char} (absent : mark ∉ text) : before mark text = text := by
  rw [before, List.takeWhile_eq_self_iff]
  intro c member
  simpa using ne_of_mem_of_not_mem member absent

-- A body that is one word declares that word.
theorem namesOfBody_of_isWord (nonempty : body ≠ []) (word : ∀ c ∈ body, isWord c = true) :
    namesOfBody body = [body] := by
  have absent {c : Char} (sign : isWord c = false) : c ∉ body := by
    intro inside
    rw [word c inside] at sign
    cases sign
  have piece : nameOfPiece body = body := by
    rw [nameOfPiece, trim_of_isWord word, before_of_not_mem (absent (by decide)),
      before_of_not_mem (absent (by decide)), trim_of_isWord word]
  rw [namesOfBody, splitAt_of_not_mem (absent (by decide)), List.map_singleton, piece,
    List.filter_singleton]
  simp [nonempty]

end Names

section Plain

theorem Form.read_eq_none {previous : Option Char}
    (plain : ∀ keyword ∈ keywords, ¬ keyword <+: text) :
    form.recogniser.read previous text = none := by
  cases found : form.recogniser.read previous text with
  | none => rfl
  | some result =>
    obtain ⟨starts, behind, begun, read⟩ := Form.exists_afterKeyword? found
    obtain ⟨keyword, known, c, rest, blank, rfl, -⟩ := eq_of_afterKeyword? begun
    exact absurd (List.prefix_append keyword _) (plain keyword known)

-- Text without a keyword is passed over, and so is the character behind it that no word has.
theorem Form.mem_places_of_plain {front : Text} {c : Char} (edge : isWord c = false)
    (plain : ∀ keyword ∈ keywords, ¬ keyword <:+: front) (rest : Text) (previous : Option Char) :
    (some c, rest) ∈ form.recogniser.places previous (front ++ c :: rest) := by
  induction front generalizing previous with
  | nil =>
    apply Recogniser.mem_places_cons
    next =>
      apply Form.read_eq_none
      intro keyword known front
      have absent := symbol_not_mem_keyword known edge
      have short := prefix_of_prefix_append_cons [] absent front
      exact ne_nil_of_mem_keywords known (List.prefix_nil.1 short)
    next => exact Recogniser.mem_places_self _ _ _
  | cons d front ih =>
    apply Recogniser.mem_places_cons
    next =>
      apply Form.read_eq_none
      intro keyword known begun
      have absent := symbol_not_mem_keyword known edge
      have short := prefix_of_prefix_append_cons (d :: front) absent begun
      exact plain keyword known short.isInfix
    next =>
      apply ih
      intro keyword known inside
      exact plain keyword known (List.infix_cons_iff.2 (.inr inside))

end Plain

def StandsClear (text script : Text) : Prop :=
  ∃ back, ∀ form : Form, ∃ previous, atWordStart previous = true ∧
    (previous, Comment.erase script ++ back) ∈
      form.recogniser.places none (Comment.erase text)

-- In a text without comments a script stands in the clear when no keyword stands before it.
theorem standsClear_of_plain {front script back : Text} {c : Char} (edge : isWord c = false)
    (line : ¬ ['/', '/'] <:+: front ++ c :: (script ++ back))
    (block : ¬ ['/', '*'] <:+: front ++ c :: (script ++ back))
    (plain : ∀ keyword ∈ keywords, ¬ keyword <:+: front) :
    StandsClear (front ++ c :: (script ++ back)) script := by
  have inside : script <:+: front ++ c :: (script ++ back) := ⟨front ++ [c], back, by simp⟩
  refine ⟨back, ?_⟩
  intro form
  refine ⟨some c, by simp [atWordStart, edge], ?_⟩
  rw [Comment.erase_of_plain line block, Comment.erase_of_plain (fun part => line (part.trans inside))
    (fun part => block (part.trans inside))]
  exact Form.mem_places_of_plain edge plain (script ++ back) none

section Declared

variable {script : Text}

theorem count_declaredNames (name code : Text) :
    (declaredNames code).count name =
      (Form.name.names (Comment.erase code)).count name +
        (Form.object.names (Comment.erase code)).count name +
          (Form.array.names (Comment.erase code)).count name := by
  simp [declaredNames, List.count_append, Nat.add_assoc]

-- What a script declares in one form is found in a text in which it stands in the clear, but for the
-- name of a bare declaration at the script's end.
theorem Form.names_of_standsClear (clear : StandsClear text script) (form : Form) :
    ∃ kept, ∃ lost : Option Text, form.names (Comment.erase script) = kept ++ lost.toList ∧
      (∀ name ∈ kept, name ∈ declaredNames text) ∧
      ∀ name ∈ lost, form = .name ∧ EndsBare (Comment.erase script) name := by
  obtain ⟨back, clear⟩ := clear
  obtain ⟨previous, starts, place⟩ := clear form
  -- At a word's start the search reads as it does at the front of the script alone.
  have same : form.recogniser.read none (Comment.erase script) =
      form.recogniser.read previous (Comment.erase script) := by
    simp [Form.recogniser, starts, show atWordStart none = true from rfl]
  obtain ⟨kept, lost, split, front, bare⟩ :=
    Form.values_append form previous (Comment.erase script) back
  refine ⟨kept.flatMap namesOfBody, lost, ?_, ?_, bare⟩
  next =>
    have single : lost.toList.flatMap namesOfBody = lost.toList := by
      cases lost with
      | none => rfl
      | some word =>
        obtain ⟨nonempty, letters⟩ := (bare word rfl).2.word
        simp [namesOfBody_of_isWord nonempty letters]
    rw [Form.names, form.recogniser.pieces_congr same, split, List.flatMap_append, single]
  next =>
    intro name member
    obtain ⟨body, inside, named⟩ := List.mem_flatMap.1 member
    have there := (Recogniser.values_suffix_of_mem_places place).subset (front.subset inside)
    exact mem_declaredNames_iff.2 ⟨form, List.mem_flatMap.2 ⟨body, there, named⟩⟩

theorem Form.count_names_of_standsClear (clear : StandsClear text script)
    (absent : name ∉ declaredNames text) (form : Form) :
    (form.names (Comment.erase script)).count name = 0 ∨
      form = .name ∧ EndsBare (Comment.erase script) name ∧
        (form.names (Comment.erase script)).count name = 1 := by
  obtain ⟨kept, lost, split, found, bare⟩ := Form.names_of_standsClear clear form
  have missed : kept.count name = 0 := List.count_eq_zero.2 fun member => absent (found name member)
  rw [split, List.count_append, missed, Nat.zero_add]
  cases lost with
  | none => exact .inl rfl
  | some word =>
    by_cases same : word = name
    next =>
      obtain ⟨plain, ending⟩ := bare word rfl
      subst same
      exact .inr ⟨plain, ending, by simp⟩
    next => exact .inl (by simp [same])

theorem count_declaredNames_of_standsClear (clear : StandsClear text script)
    (absent : name ∉ declaredNames text) (declared : name ∈ declaredNames script) :
    EndsBare (Comment.erase script) name ∧ (declaredNames script).count name = 1 := by
  have counts := Form.count_names_of_standsClear clear absent
  have object := (counts .object).resolve_right (by simp)
  have array := (counts .array).resolve_right (by simp)
  rw [← List.count_pos_iff, count_declaredNames, object, array] at declared
  rw [count_declaredNames, object, array]
  rcases counts .name with none | ⟨-, bare, once⟩
  next => omega
  next => exact ⟨bare, once⟩

end Declared

end Inlay.Script
