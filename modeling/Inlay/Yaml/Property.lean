import Inlay.Decimal.Reading
import Inlay.Yaml.Character

set_option autoImplicit false

namespace Inlay.Yaml

open Text

def anchorName? (text : Text) : Option (Text × Text) :=
  match text.takeWhile isNameChar, text.dropWhile isNameChar with
  | [], _ => none
  | c :: name, rest =>
    let closes := rest.head?.map "?:,]\x7d%@`".toList.contains
    if endsWord rest || closes.getD false then some (c :: name, rest) else none

def isUriChar (c : Char) : Bool :=
  isNameChar c || ";/?:@&=+$,.!~*'()[]".toList.contains c

def require {A : Type} (read? : Option A) : Except Fault A :=
  match read? with
  | some value => .ok value
  | none => .error .malformed

def readMark (c : Char) : Text → Except Fault Text
  | [] => .error .unfinished
  | d :: rest => if c = d then .ok rest else .error .malformed

def hexByte? (high low : Char) : Option UInt8 := do
  let high ← digitOfBase? 16 high
  let low ← digitOfBase? 16 low
  return (high * 16 + low).toUInt8

def uriBytes : Text → Except Fault (Bytes × Text)
  | [] => .ok ([], [])
  | '%' :: high :: low :: rest => do
    let b ← require (hexByte? high low)
    let (bytes, rest) ← uriBytes rest
    return (b :: bytes, rest)
  | c :: rest =>
    if c = '%' then
      .error (if rest.all fun c => (digitOfBase? 16 c).isSome then .unfinished else .malformed)
    else if isUriChar c then do
      let (bytes, rest) ← uriBytes rest
      return (c.toNat.toUInt8 :: bytes, rest)
    else .ok ([], c :: rest)

def readUri (text : Text) : Except Fault (Text × Text) := do
  let (bytes, rest) ← uriBytes text
  match bytes, Utf8.decode bytes with
  | _ :: _, .ok uri => return (uri, rest)
  | _, _ => throw (if rest = [] then .unfinished else .malformed)

def readHandle : Text → Except Fault (Text × Text)
  | [] => .error .unfinished
  | '!' :: ' ' :: rest => .ok (['!'], ' ' :: rest)
  | '!' :: rest =>
    match rest.dropWhile isNameChar with
    | [] => .error .unfinished
    | '!' :: left => .ok ('!' :: rest.takeWhile isNameChar ++ ['!'], left)
    | _ => .error .malformed
  | _ => .error .malformed

def requireEnd (rest : Text) : Except Fault Unit :=
  if endsProperty rest then .ok () else .error .malformed

structure WrittenTag where
  handle? : Option Text
  name : Text
  deriving Repr, DecidableEq

namespace WrittenTag

def bare : WrittenTag := ⟨none, ['!']⟩

def readFront (text : Text) : Except Fault (WrittenTag × Text) := do
  match text with
  | '<' :: rest =>
    let (uri, rest) ← readUri rest
    return (⟨none, uri⟩, ← readMark '>' rest)
  | text =>
    if endsWord text then return (bare, text)
    match text.dropWhile fun c => !(c == '!' || endsProperty [c]) with
    | [] =>
      match readUri text with
      | .ok (name, []) => return (⟨some ['!'], name⟩, [])
      | _ => throw .unfinished
    | '!' :: _ =>
      let (handle, rest) ← readHandle ('!' :: text)
      let (name, rest) ← readUri rest
      return (⟨some handle, name⟩, rest)
    | _ =>
      let (name, rest) ← readUri text
      return (⟨some ['!'], name⟩, rest)

def read (text : Text) : Except Fault (WrittenTag × Text) := do
  let (tag, rest) ← readFront text
  requireEnd rest
  return (tag, rest)

end WrittenTag

inductive Directive
  | version (major : Nat)
  | handle (handle uri : Text)
  | other
  deriving Repr, DecidableEq

namespace Directive

def number (text : Text) : Except Fault (Nat × Text) := do
  if text = [] then throw .unfinished
  let digits := text.takeWhile isAsciiDigit
  if Decimal.digitLimit < digits.length then throw .badNumber
  return (← require (decimal? digits), text.dropWhile isAsciiDigit)

def readVersion (text : Text) : Except Fault (Directive × Text) := do
  let (major, rest) ← number (text.dropWhile (· == ' '))
  let (_, rest) ← number (← readMark '.' rest)
  requireEnd rest
  return (version major, rest)

def readHandle (text : Text) : Except Fault (Directive × Text) := do
  let (name, rest) ← Yaml.readHandle (text.dropWhile (· == ' '))
  let rest ← readMark ' ' rest
  let (uri, rest) ← readUri (rest.dropWhile (· == ' '))
  requireEnd rest
  return (handle name uri, rest)

def read (text : Text) : Except Fault (Directive × Text) := do
  let name := text.takeWhile isNameChar
  let rest := text.dropWhile isNameChar
  if name = [] then throw .malformed
  requireEnd rest
  let (directive, rest) ←
    if name = "YAML".toList then readVersion rest
    else if name = "TAG".toList then readHandle rest
    else pure (other, rest.dropWhile fun c => !isBreak c)
  return (directive, ← require (skipLineEnd? rest))

end Directive
end Inlay.Yaml
