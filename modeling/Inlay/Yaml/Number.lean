import Inlay.Decimal.Reading
import Inlay.Text.Character
import Inlay.Value.Basic
import Inlay.Yaml.Character

set_option autoImplicit false

namespace Inlay.Yaml

open Text

inductive Timestamp
  | date (date : Date) (padded : Bool)
  | moment (moment : Moment)
  deriving Repr, DecidableEq

namespace Timestamp

def isBlank (c : Char) : Bool :=
  c == ' ' || c == '\t'

def digits? (least most : Nat) (text : Text) : Option (Nat × Nat × Text) :=
  let found := (text.take most).takeWhile isAsciiDigit
  if found.length < least then none
  else (decimal? found).map fun value => (value, found.length, text.drop found.length)

def signedOffset? (negative : Bool) (text : Text) : Option Int := do
  let (hours, _, rest) ← digits? 1 2 text
  let minutes ←
    match rest with
    | [] => some 0
    | ':' :: rest =>
      match digits? 2 2 rest with
      | some (minutes, _, []) => some minutes
      | _ => none
    | _ => none
  let offset : Int := hours * 60 + minutes
  return if negative then -offset else offset

def offset? (text : Text) : Option (Option Int) :=
  if text = [] then some none
  else
    match text.dropWhile isBlank with
    | ['Z'] => some (some 0)
    | '+' :: rest => (signedOffset? false rest).map some
    | '-' :: rest => (signedOffset? true rest).map some
    | _ => none

def microseconds? (fraction : Text) : Option Nat :=
  let six := fraction.take 6
  decimal? (six ++ List.replicate (6 - six.length) '0')

def moment? (date : Date) (text : Text) : Option Moment := do
  let (hour, _, rest) ← digits? 1 2 text
  let (minute, _, rest) ← digits? 2 2 (← after? [':'] rest)
  let (second, _, rest) ← digits? 2 2 (← after? [':'] rest)
  let (fraction, rest) :=
    match rest with
    | '.' :: rest => (rest.takeWhile isAsciiDigit, rest.dropWhile isAsciiDigit)
    | rest => ([], rest)
  let microsecond ← microseconds? fraction
  let offset ← offset? rest
  return ⟨date, hour, minute, second, microsecond, offset⟩

def skipSeparator? : Text → Option Text
  | [] => none
  | c :: rest =>
    if c = 'T' ∨ c = 't' then some rest
    else if isBlank c then some (rest.dropWhile isBlank)
    else none

def ofText? (text : Text) : Option Timestamp := do
  let (year, _, rest) ← digits? 4 4 (dropLineEnd text)
  let (month, monthWidth, rest) ← digits? 1 2 (← after? ['-'] rest)
  let (day, dayWidth, rest) ← digits? 1 2 (← after? ['-'] rest)
  if rest = [] then return date ⟨year, month, day⟩ (monthWidth == 2 && dayWidth == 2)
  else return moment (← moment? ⟨year, month, day⟩ (← skipSeparator? rest))

def isPlain (text : Text) : Bool :=
  match ofText? text with
  | some (date _ padded) => padded
  | some (moment _) => true
  | none => false

end Timestamp

namespace Number

def sign? : Text → Except Fault (Bool × Text)
  | [] => .error .emptyNumber
  | c :: rest => .ok (c == '-', if c = '-' ∨ c = '+' then rest else c :: rest)

def read {A : Type} (value? : Option A) : Except Fault A :=
  match value? with
  | some value => .ok value
  | none => .error .badNumber

def ofSixtieths (parts : List Int) : Int :=
  parts.foldl (fun total part => total * 60 + part) 0

def magnitude : Text → Except Fault Int
  | [] => .error .emptyNumber
  | ['0'] => .ok 0
  | '0' :: 'b' :: digits => read (Decimal.int? 2 digits)
  | '0' :: 'x' :: digits => read (Decimal.int? 16 digits)
  | '0' :: digits => read (Decimal.int? 8 ('0' :: digits))
  | text =>
    if text.contains ':' then
      read (((splitAt ':' text).mapM (Decimal.int? 10)).map ofSixtieths)
    else read (Decimal.int? 10 text)

def int (text : Text) : Except Fault Int := do
  let (negative, body) ← sign? (text.filter (· != '_'))
  let value ← magnitude body
  return if negative then -value else value

def addWeighted (total : Double) (weight : Nat) : List Double → Except Fault Double
  | [] => .ok total
  | part :: parts =>
    match Double.ofNat weight with
    | .infinite _ => .error .tooLarge
    | factor => addWeighted (total.add (part.mul factor)) (weight * 60) parts

def magnitudeDouble (text : Text) : Except Fault Double :=
  if text = ".inf".toList then .ok (.infinite false)
  else if text.contains ':' then do
    let parts ← read ((splitAt ':' text).mapM Decimal.double?)
    addWeighted (Double.ofNat 0) 1 parts.reverse
  else read (Decimal.double? text)

def double (place : Nat) (text : Text) : Except Fault Double := do
  let (negative, body) ← sign? (lower (text.filter (· != '_')))
  if body = ".nan".toList then return .nan 0
  else
    match ← magnitudeDouble body with
    | .nan _ => return .nan place
    | value => return if negative then value.neg else value

end Number

end Inlay.Yaml
