import Inlay.Decimal.Double
import Inlay.Text.Character

set_option autoImplicit false

namespace Inlay.Decimal

open Text

def sign (text : Text) : Bool × Text :=
  match text with
  | '-' :: rest => (true, rest)
  | '+' :: rest => (false, rest)
  | _ => (false, text)

def isNumberBlank (c : Char) : Bool :=
  isBlank c && !(decide (28 <= c.toNat) && decide (c.toNat <= 31))

def digits? (base : Nat) : Text → Option (List Nat)
  | [] => none
  | [c] => (digitOfBase? base c).map ([·])
  | c :: '_' :: rest => do
    let value ← digitOfBase? base c
    return value :: (← digits? base rest)
  | c :: rest => do
    let value ← digitOfBase? base c
    return value :: (← digits? base rest)

def baseMarks (base : Nat) : List Char :=
  if base = 2 then ['b', 'B'] else if base = 8 then ['o', 'O'] else if base = 16 then ['x', 'X']
  else []

def skipBaseMark (base : Nat) (text : Text) : Text :=
  match text with
  | '0' :: c :: rest =>
    if (baseMarks base).contains c then
      match rest with
      | '_' :: rest => rest
      | _ => rest
    else text
  | _ => text

def digitLimit : Nat := 4300

def int? (base : Nat) (text : Text) : Option Int := do
  let (negative, body) := sign (trimBy isNumberBlank text)
  let values ← digits? base (skipBaseMark base body)
  if base = 10 ∧ digitLimit < values.length then none
  else
    let magnitude := ofDigitValues base values
    return if negative then -(magnitude : Int) else magnitude

def leadingDigits : Text → List Nat × Text
  | [] => ([], [])
  | c :: rest =>
    match digit? c with
    | none => ([], c :: rest)
    | some value =>
      let (values, rest) := leadingDigits rest
      (value :: values, rest)

def isInfinity (text : Text) : Bool :=
  let small := text.map Char.toLower
  small == "inf".toList || small == "infinity".toList

def exponent? : Text → Option Int
  | [] => some 0
  | c :: rest =>
    if c = 'e' ∨ c = 'E' then
      let (negative, body) := sign rest
      match leadingDigits body with
      | ([], _) => none
      | (values, []) =>
        let magnitude : Int := ofDigitValues 10 values
        some (if negative then -magnitude else magnitude)
      | _ => none
    else none

def double? (text : Text) : Option Double :=
  let (negative, body) := sign (trimBy isNumberBlank text)
  if isInfinity body then some (.infinite negative)
  else if body.map Char.toLower = "nan".toList then some (.nan 0)
  else
    let (whole, rest) := leadingDigits body
    let (fraction, rest) :=
      match rest with
      | '.' :: rest => leadingDigits rest
      | _ => ([], rest)
    if whole = [] ∧ fraction = [] then none
    else (exponent? rest).map fun exponent =>
      Double.ofDecimal negative (ofDigitValues 10 (whole ++ fraction))
        (exponent - (fraction.length : Int))

end Inlay.Decimal
