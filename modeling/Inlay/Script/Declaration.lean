import Inlay.Markup
import Inlay.Script.Comment
import Inlay.Text.Character

set_option autoImplicit false

namespace Inlay.Script

open Text Markup

def keywords : List Text :=
  ["let", "const", "var"]

def afterKeyword? (text : Text) : Option Text :=
  keywords.findSome? fun keyword => (after? keyword text).bind skipBlanks?

theorem suffix_of_afterKeyword? {text rest : Text} (found : afterKeyword? text = some rest) :
    ∃ start, start ≠ [] ∧ text = start ++ rest := by
  obtain ⟨keyword, -, found⟩ := List.exists_of_findSome?_eq_some found
  rw [Option.bind_eq_some_iff] at found
  obtain ⟨behind, begun, skipped⟩ := found
  obtain ⟨blanks, nonempty, -, rfl⟩ := eq_of_skipBlanks? skipped
  exact ⟨keyword ++ blanks, by simp [nonempty], by simpa using after?_eq_some_iff.1 begun⟩

def endOfName? (text : Text) : Option Text :=
  match text.dropWhile isBlank with
  | [] => some []
  | c :: rest => if c = '=' ∨ c = ';' then some rest else none

theorem suffix_of_endOfName? {text rest : Text} (found : endOfName? text = some rest) :
    ∃ ending, text = ending ++ rest := by
  unfold endOfName? at found
  have whole := List.takeWhile_append_dropWhile (p := isBlank) (l := text)
  split at found
  next => exact ⟨text, by cases found; simp⟩
  next c after shape =>
    split at found
    next =>
      cases found
      rw [shape] at whole
      exact ⟨text.takeWhile isBlank ++ [c], by simp [whole]⟩
    next => cases found

def name? (text : Text) : Option (Text × Text) := do
  let (name, behind) ← word? text
  return (name, ← endOfName? behind)

def pattern? (opening closing : Char) : Text → Option (Text × Text)
  | [] => none
  | c :: text =>
    if c = opening then
      match text.takeWhile (· != closing), text.dropWhile (· != closing) with
      | [], _ => none
      | _ :: _, [] => none
      | d :: body, _ :: rest => some (d :: body, rest)
    else none

theorem suffix_of_name? {text rest name : Text} (found : name? text = some (name, rest)) :
    ∃ start, text = start ++ rest := by
  simp only [name?, Option.bind_eq_bind, Option.bind_eq_some_iff, Prod.exists, Option.pure_def,
    Option.some.injEq, Prod.mk.injEq] at found
  obtain ⟨word, behind, read, after, ended, rfl, rfl⟩ := found
  obtain ⟨-, -, rfl⟩ := eq_of_word? read
  obtain ⟨ending, rfl⟩ := suffix_of_endOfName? ended
  exact ⟨word ++ ending, by simp⟩

theorem suffix_of_pattern? {opening closing : Char} {text rest body : Text}
    (found : pattern? opening closing text = some (body, rest)) :
    ∃ start, text = start ++ rest := by
  unfold pattern? at found
  split at found
  next => cases found
  next c text =>
    split at found
    next =>
      have whole := List.takeWhile_append_dropWhile (p := (· != closing)) (l := text)
      split at found
      next => cases found
      next => cases found
      next d body e after taken dropped =>
        cases found
        rw [taken, dropped] at whole
        exact ⟨c :: d :: body ++ [e], by simp [← whole]⟩
    next => cases found

inductive Form
  | name
  | object
  | array
  deriving Repr, DecidableEq

def Form.body? : Form → Text → Option (Text × Text)
  | .name, text => name? text
  | .object, text => pattern? '{' '}' text
  | .array, text => pattern? '[' ']' text

theorem Form.suffix_of_body? {form : Form} {text rest body : Text}
    (found : form.body? text = some (body, rest)) : ∃ start, text = start ++ rest := by
  cases form with
  | name => exact suffix_of_name? found
  | object => exact suffix_of_pattern? found
  | array => exact suffix_of_pattern? found

def Form.recogniser (form : Form) : Recogniser Text where
  read previous text :=
    if atWordStart previous then (afterKeyword? text).bind form.body? else none
  advances found := by
    split at found
    next =>
      rw [Option.bind_eq_some_iff] at found
      obtain ⟨behind, begun, read⟩ := found
      obtain ⟨start, nonempty, rfl⟩ := suffix_of_afterKeyword? begun
      obtain ⟨middle, rfl⟩ := Form.suffix_of_body? read
      exact ⟨start ++ middle, by simp [nonempty], by simp⟩
    next => cases found

def nameOfPiece (piece : Text) : Text :=
  trim (before '=' (before ':' (trim piece)))

def namesOfBody (body : Text) : List Text :=
  ((splitAt ',' body).map nameOfPiece).filter (· ≠ [])

def Form.names (form : Form) (code : Text) : List Text :=
  (form.recogniser.pieces none code).values.flatMap namesOfBody

def declaredNames (code : Text) : List Text :=
  let code := Comment.erase code
  [Form.name, Form.object, Form.array].flatMap fun form => form.names code

def declaredNamesOf (scripts : List Segment) : List Text :=
  scripts.flatMap fun script => declaredNames script.content

def clashes (host block : List Text) : List Text :=
  sortedSet (host.filter (block.contains ·))

end Inlay.Script
