import Inlay.Text.Pieces

set_option autoImplicit false

namespace Inlay.Script.Comment

open Text

def atLineStart : Option Char → Bool
  | none => true
  | some c => c == '\n'

def protects (c : Char) : Bool :=
  c == ':' || c == '\\'

def block? : Text → Option Text
  | '/' :: '*' :: inside => (cut? ['*', '/'] inside).map (·.2)
  | _ => none

def line? : Text → Option Text
  | '/' :: '/' :: comment => some (comment.dropWhile (· != '\n'))
  | _ => none

def unprotected? (previous : Option Char) : Text → Option (Text × Text)
  | [] => none
  | c :: text =>
    match if protects c then none else line? text with
    | some rest => some ([c], rest)
    | none => if atLineStart previous then (line? (c :: text)).map ([], ·) else none

def read? (previous : Option Char) (text : Text) : Option (Text × Text) :=
  match block? text with
  | some rest => some ([], rest)
  | none => unprotected? previous text

theorem suffix_of_block? {text rest : Text} (found : block? text = some rest) :
    ∃ comment, comment ≠ [] ∧ text = comment ++ rest := by
  unfold block? at found
  split at found
  next inside =>
    simp only [Option.map_eq_some_iff, Prod.exists] at found
    obtain ⟨before, after, cut, rfl⟩ := found
    exact ⟨'/' :: '*' :: before ++ ['*', '/'], by simp, by simpa using eq_of_cut? cut⟩
  next => cases found

theorem suffix_of_line? {text rest : Text} (found : line? text = some rest) :
    ∃ comment, comment ≠ [] ∧ text = comment ++ rest := by
  unfold line? at found
  split at found
  next comment =>
    cases found
    exact ⟨'/' :: '/' :: comment.takeWhile (· != '\n'), by simp,
      by simp [List.takeWhile_append_dropWhile]⟩
  next => cases found

theorem suffix_of_unprotected? {previous : Option Char} {text rest kept : Text}
    (found : unprotected? previous text = some (kept, rest)) :
    ∃ comment, comment ≠ [] ∧ text = comment ++ rest := by
  unfold unprotected? at found
  split at found
  next => cases found
  next c text =>
    split at found
    next after behind =>
      cases found
      split at behind
      next => cases behind
      next =>
        obtain ⟨comment, -, rfl⟩ := suffix_of_line? behind
        exact ⟨c :: comment, by simp, by simp⟩
    next =>
      split at found
      next =>
        simp only [Option.map_eq_some_iff, Prod.mk.injEq] at found
        obtain ⟨after, here, -, rfl⟩ := found
        exact suffix_of_line? here
      next => cases found

def form : Recogniser Text where
  read := read?
  advances found := by
    unfold read? at found
    split at found
    next rest block =>
      cases found
      exact suffix_of_block? block
    next => exact suffix_of_unprotected? found

def erase (code : Text) : Text :=
  (form.pieces none code).write id

end Inlay.Script.Comment
