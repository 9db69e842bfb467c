import Inlay.File
import Inlay.Text.Character
import Inlay.Text.Pieces

set_option autoImplicit false

namespace Inlay

open Text

structure Import where
  statement : Text
  name : Text
  blockPath : Text
  path : Text
  deriving Repr, DecidableEq

namespace Import

def isQuote (c : Char) : Bool :=
  c == '"' || c == '\''

def close? (suffix text : Text) : Option Text :=
  match after? suffix text with
  | some (c :: ';' :: rest) => if isQuote c then some rest else none
  | _ => none

def stem? (suffix : Text) : Text → Option (Text × Text)
  | [] => none
  | c :: text =>
    if c = '\n' then none
    else
      match close? suffix text with
      | some rest => some ([c], rest)
      | none => (stem? suffix text).map fun (stem, rest) => (c :: stem, rest)

def read? (suffix text : Text) : Option ((Text × Text) × Text) := do
  let text ← skipBlanks? (← after? "import" text)
  let (name, text) ← word? text
  let text ← skipBlanks? (← after? "from" (← skipBlanks? text))
  match text with
  | [] => none
  | c :: text =>
    if isQuote c then
      let (stem, rest) ← stem? suffix text
      return ((name, stem), rest)
    else none

theorem suffix_of_close? {suffix text rest : Text} (found : close? suffix text = some rest) :
    ∃ close, text = close ++ rest := by
  unfold close? at found
  split at found
  next c after begun =>
    split at found
    next =>
      cases found
      exact ⟨suffix ++ [c, ';'], by simpa using after?_eq_some_iff.1 begun⟩
    next => cases found
  next => cases found

theorem suffix_of_stem? {suffix text rest stem : Text}
    (found : stem? suffix text = some (stem, rest)) : ∃ start, text = start ++ rest := by
  induction text generalizing stem with
  | nil => simp [stem?] at found
  | cons c text ih =>
    unfold stem? at found
    split at found
    next => cases found
    next =>
      split at found
      next after closed =>
        cases found
        obtain ⟨close, rfl⟩ := suffix_of_close? closed
        exact ⟨c :: close, by simp⟩
      next =>
        simp only [Option.map_eq_some_iff, Prod.exists, Prod.mk.injEq] at found
        obtain ⟨stem, after, read, -, rfl⟩ := found
        obtain ⟨start, rfl⟩ := ih read
        exact ⟨c :: start, by simp⟩

theorem suffix_of_read? {suffix text rest : Text} {value : Text × Text}
    (found : read? suffix text = some (value, rest)) :
    ∃ statement, statement ≠ [] ∧ text = statement ++ rest := by
  simp only [read?, Option.bind_eq_bind, Option.bind_eq_some_iff, Prod.exists] at found
  obtain ⟨a, begun, b, first, name, c, word, d, second, e, keyword, f, third, final⟩ := found
  obtain ⟨gap, nonempty, -, rfl⟩ := eq_of_skipBlanks? first
  obtain ⟨-, -, rfl⟩ := eq_of_word? word
  obtain ⟨gap', -, -, rfl⟩ := eq_of_skipBlanks? second
  obtain ⟨gap'', -, -, rfl⟩ := eq_of_skipBlanks? third
  rw [after?_eq_some_iff.1 begun, after?_eq_some_iff.1 keyword]
  split at final
  next => cases final
  next quote inside =>
    split at final
    next =>
      simp only [Option.bind_eq_some_iff, Prod.exists, Option.pure_def, Option.some.injEq,
        Prod.mk.injEq] at final
      obtain ⟨stem, after, read, -, rfl⟩ := final
      obtain ⟨start, rfl⟩ := suffix_of_stem? read
      refine ⟨"import".toList ++ gap ++ name ++ gap' ++ "from".toList ++ gap'' ++ quote :: start,
        by simp, by simp⟩
    next => cases final

def form (document suffix : Text) : Recogniser Import where
  read _ text := (read? suffix text).map fun ((name, stem), rest) =>
    (⟨text.take (text.length - rest.length), name, stem ++ suffix,
      (Path.resolve document (stem ++ suffix)).toText⟩, rest)
  advances found := by
    simp only [Option.map_eq_some_iff, Prod.exists, Prod.mk.injEq] at found
    obtain ⟨name, stem, rest, read, -, rfl⟩ := found
    exact suffix_of_read? read

def scan (suffix document text : Text) : List Import :=
  ((form document suffix).pieces none text).values

end Import
end Inlay
