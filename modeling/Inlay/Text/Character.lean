import Inlay.Text.Basic
import Inlay.Text.CaseTable
import Inlay.Text.Charset

set_option autoImplicit false

namespace Inlay.Text

def blanks : Charset :=
  [(9, 13), (28, 32), (133, 133), (160, 160), (5760, 5760), (8192, 8202), (8232, 8233),
   (8239, 8239), (8287, 8287), (12288, 12288)]

def paddings : Charset :=
  [(9, 13), (32, 32), (160, 160), (5760, 5760), (8192, 8202), (8232, 8233), (8239, 8239),
   (8287, 8287), (12288, 12288), (65279, 65279)]

def isBlank (c : Char) : Bool :=
  blanks.has c

def isPadding (c : Char) : Bool :=
  paddings.has c

def trim (text : Text) : Text :=
  trimBy isPadding text

def strip (text : Text) : Text :=
  trimBy isBlank text

def skipBlanks? : Text → Option Text
  | [] => none
  | c :: text => if isBlank c then some (text.dropWhile isBlank) else none

theorem eq_of_skipBlanks? {text rest : Text} (h : skipBlanks? text = some rest) :
    ∃ skipped, skipped ≠ [] ∧ (∀ c ∈ skipped, isBlank c = true) ∧ text = skipped ++ rest := by
  cases text with
  | nil => simp [skipBlanks?] at h
  | cons c text =>
    by_cases blank : isBlank c
    next =>
      simp only [skipBlanks?, blank, if_true, Option.some.injEq] at h
      refine ⟨c :: text.takeWhile isBlank, by simp, ?_, ?_⟩
      next =>
        intro d member
        rcases List.mem_cons.1 member with rfl | member
        next => exact blank
        next => exact List.all_eq_true.1 List.all_takeWhile d member
      next => simp [← h, List.takeWhile_append_dropWhile]
    next => simp [skipBlanks?, blank] at h

def zeros : List Nat :=
  [48, 1632, 1776, 1984, 2406, 2534, 2662, 2790, 2918, 3046, 3174, 3302, 3430, 3558, 3664, 3792,
   3872, 4160, 4240, 6112, 6160, 6470, 6608, 6784, 6800, 6992, 7088, 7232, 7248, 42528, 43216,
   43264, 43472, 43504, 43600, 44016, 65296, 66720, 68912, 69734, 69872, 69942, 70096, 70384,
   70736, 70864, 71248, 71360, 71472, 71904, 72016, 72784, 73040, 73120, 92768, 92864, 93008,
   120782, 120792, 120802, 120812, 120822, 123200, 123632, 125264, 130032]

def digit? (c : Char) : Option Nat :=
  (zeros.find? fun start => decide (start <= c.toNat) && decide (c.toNat <= start + 9)).map
    fun start => c.toNat - start

def isDigit (c : Char) : Bool :=
  (digit? c).isSome

def isAsciiDigit (c : Char) : Bool :=
  decide ('0' <= c) && decide (c <= '9')

def isAsciiLetter (c : Char) : Bool :=
  (decide ('a' <= c) && decide (c <= 'z')) || (decide ('A' <= c) && decide (c <= 'Z'))

def digitOfBase? (base : Nat) (c : Char) : Option Nat :=
  let value? :=
    if decide ('a' <= c) && decide (c <= 'f') then some (c.toNat - 'a'.toNat + 10)
    else if decide ('A' <= c) && decide (c <= 'F') then some (c.toNat - 'A'.toNat + 10)
    else digit? c
  value?.filter (decide <| · < base)

def ofDigitValues (base : Nat) (values : List Nat) : Nat :=
  values.foldl (fun total value => total * base + value) 0

def decimal? (text : Text) : Option Nat :=
  if text = [] then none else (text.mapM digit?).map (ofDigitValues 10)

def isWord (c : Char) : Bool :=
  alphanumeric.has c || c == '_'

def atWordStart : Option Char → Bool
  | none => true
  | some c => !isWord c

def word? (text : Text) : Option (Text × Text) :=
  match text.takeWhile isWord with
  | [] => none
  | c :: cs => some (c :: cs, text.dropWhile isWord)

theorem eq_of_word? {text word rest : Text} (h : word? text = some (word, rest)) :
    word ≠ [] ∧ (∀ c ∈ word, isWord c = true) ∧ text = word ++ rest := by
  unfold word? at h
  split at h
  next => cases h
  next c cs taken =>
    simp only [Option.some.injEq, Prod.mk.injEq] at h
    obtain ⟨rfl, rfl⟩ := h
    refine ⟨by simp, ?_, ?_⟩
    next =>
      intro d member
      exact List.all_eq_true.1 List.all_takeWhile d (taken ▸ member)
    next => rw [← taken, List.takeWhile_append_dropWhile]

def CaseRun.has (run : CaseRun) (code : Nat) : Bool :=
  decide (run.first <= code) && decide (code <= run.last) && (code - run.first) % run.step == 0

def mapCase (runs : List CaseRun) (expansions : List (Nat × List Nat)) (c : Char) : Text :=
  match expansions.lookup c.toNat with
  | some codes => codes.map Char.ofNat
  | none =>
    match runs.find? (·.has c.toNat) with
    | some run => [Char.ofNat (c.toNat + run.shift).toNat]
    | none => [c]

def upper (text : Text) : Text :=
  text.flatMap (mapCase upperRuns upperExpansions)

def meetsCased (text : Text) : Bool :=
  ((text.dropWhile caseIgnorable.has).head?.map cased.has).getD false

def capitalSigma : Char := Char.ofNat 0x3A3

def lowerBetween (before : Text) (c : Char) (after : Text) : Text :=
  if c = capitalSigma then
    [Char.ofNat (if meetsCased before && !meetsCased after then 0x3C2 else 0x3C3)]
  else mapCase lowerRuns lowerExpansions c

def lowerFrom (before : Text) : Text → Text
  | [] => []
  | c :: after => lowerBetween before c after ++ lowerFrom (c :: before) after

def lower (text : Text) : Text :=
  lowerFrom [] text

end Inlay.Text
