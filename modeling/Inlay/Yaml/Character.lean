import Inlay.Text.Character
import Inlay.Text.Codec

set_option autoImplicit false

namespace Inlay.Yaml

open Text

inductive Fault
  | malformed
  | unfinished
  | tooDeep
  | badNumber
  | emptyNumber
  | badTruth
  | badMoment
  | notText
  | tooLarge
  | undecodable (fault : DecodeFault)
  deriving Repr, DecidableEq

namespace Fault

def message : Fault → Text
  | malformed => "malformed document"
  | unfinished => "unfinished document"
  | tooDeep => "collections inside each other too deep"
  | badNumber => "a number that does not exist"
  | emptyNumber => "a number without digits"
  | badTruth => "not a truth value"
  | badMoment => "not a date"
  | notText => "not a text"
  | tooLarge => "a number out of range"
  | undecodable fault => fault.message

end Fault

def byteOrderMark : Char := Char.ofNat 0xFEFF

def allowed : Charset :=
  [(9, 10), (13, 13), (0x20, 0x7E), (0x85, 0x85), (0xA0, 0xD7FF), (0xE000, 0xFFFD),
   (0x10000, 0x10FFFF)]

def isAllowed (c : Char) : Bool :=
  allowed.has c

def isBreak (c : Char) : Bool :=
  [10, 0x85, 0x2028, 0x2029].contains c.toNat

def breakValue (c : Char) : Char :=
  if c.toNat = 0x85 then '\n' else c

def isSpace (c : Char) : Bool :=
  c == ' ' || c == '\t'

def endsWord : Text → Bool
  | [] => true
  | c :: _ => isSpace c || isBreak c

def endsProperty : Text → Bool
  | [] => true
  | c :: _ => c == ' ' || isBreak c

def endsLine : Text → Bool
  | [] => true
  | c :: _ => isBreak c

def atTriple (c : Char) (line : Text) : Bool :=
  match after? [c, c, c] line with
  | some rest => endsWord rest
  | none => false

def atMarker (line : Text) : Bool :=
  atTriple '-' line || atTriple '.' line

def isNameChar (c : Char) : Bool :=
  isAsciiDigit c || isAsciiLetter c || c == '-' || c == '_'

def isFlowMark (c : Char) : Bool :=
  [',', '[', ']', '\x7b', '\x7d'].contains c

inductive Gap
  | none
  | spaces (text : Text)
  | broken (first : Char) (more : Text)
  | continued (more : Text)
  deriving Repr, DecidableEq

namespace Gap

def addSpace (gap : Gap) (c : Char) : Gap :=
  match gap with
  | none => spaces [c]
  | spaces text => spaces (text ++ [c])
  | broken first more => broken first more
  | continued more => continued more

def addBreak (gap : Gap) (c : Char) : Gap :=
  match gap with
  | none => broken (breakValue c) []
  | spaces _ => broken (breakValue c) []
  | broken first more => broken first (more ++ [breakValue c])
  | continued more => continued (more ++ [breakValue c])

def text : Gap → Text
  | none => []
  | spaces text => text
  | broken '\n' [] => [' ']
  | broken '\n' more => more
  | broken first more => first :: more
  | continued more => more

def isBroken : Gap → Bool
  | broken _ _ => true
  | _ => false

end Gap

structure Cursor where
  rest : Text
  index : Nat := 0
  line : Nat := 0
  column : Nat := 0

namespace Cursor

def next (cursor : Cursor) : Cursor :=
  match cursor.rest with
  | [] => cursor
  | c :: rest =>
    if isBreak c then ⟨rest, cursor.index + 1, cursor.line + 1, 0⟩
    else
      ⟨rest, cursor.index + 1, cursor.line,
        if c = byteOrderMark then cursor.column else cursor.column + 1⟩

def skip : Nat → Cursor → Cursor
  | 0, cursor => cursor
  | n + 1, cursor => skip n cursor.next

def upTo (cursor : Cursor) (rest : Text) : Cursor :=
  cursor.skip (cursor.rest.length - rest.length)

end Cursor

def skipGap (inComment crossed : Bool) : Text → Text × Bool
  | [] => ([], crossed)
  | c :: rest =>
    if isBreak c then skipGap false true rest
    else if inComment || c == ' ' then skipGap inComment crossed rest
    else if c == '#' then skipGap true crossed rest
    else (c :: rest, crossed)

def skipLineEnd? (rest : Text) : Option Text :=
  let rest := rest.dropWhile (· == ' ')
  let rest := if rest.head? = some '#' then rest.dropWhile (fun c => !isBreak c) else rest
  match rest with
  | [] => some []
  | c :: rest => if isBreak c then some rest else none

structure Stream where
  text : Text
  beyond? : Option Fault := none
  deriving Repr, DecidableEq

namespace Stream

def portion : Nat := 4096

def portionStart (place : Nat) : Nat :=
  if place < 2 * portion then 0 else place / portion * portion

def ofText (text : Text) (beyond? : Option Fault) : Stream :=
  let whole :=
    match beyond? with
    | none => text
    | some _ => text.take (portionStart text.length)
  let clean := whole.takeWhile isAllowed
  if clean.length < whole.length then ⟨whole.take (portionStart clean.length), some .malformed⟩
  else ⟨whole, beyond?⟩

end Stream
end Inlay.Yaml
