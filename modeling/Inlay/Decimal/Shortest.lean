import Inlay.Decimal.Double
import Inlay.Text.Basic

set_option autoImplicit false

namespace Inlay.Decimal

open Text

structure Digits where
  digits : Nat
  power : Int
  deriving Repr, DecidableEq

def crossed (num den : Nat) (place : Digits) : Nat × Nat :=
  if 0 <= place.power then (num, place.digits * Nat.pow 10 place.power.toNat * den)
  else (num * Nat.pow 10 (-place.power).toNat, place.digits * den)

def leadingPower (num den : Nat) : Int :=
  if den <= num then ((Nat.toDigits 10 (num / den)).length : Int) - 1
  else
    match (List.range 400).find? fun shift => decide (den <= num * Nat.pow 10 shift) with
    | some shift => -(shift : Int)
    | none => 0

structure Interval where
  low : Nat
  value : Nat
  high : Nat
  den : Nat
  closed : Bool
  deriving Repr, DecidableEq

def Interval.ofDouble (mantissa : Nat) (exponent : Int) : Interval :=
  let below := if mantissa = Double.mantissaUnit ∧ Double.leastExponent < exponent then 1 else 2
  let unit := Double.toRatio 1 (exponent - 2)
  ⟨(4 * mantissa - below) * unit.1, 4 * mantissa * unit.1, (4 * mantissa + 2) * unit.1, unit.2,
    mantissa % 2 == 0⟩

def Interval.has (range : Interval) (candidate : Digits) : Bool :=
  let (low, point) := crossed range.low range.den candidate
  let (high, _) := crossed range.high range.den candidate
  if range.closed then decide (low <= point) && decide (point <= high)
  else decide (low < point) && decide (point < high)

def Interval.neighbour? (range : Interval) (power : Int) : Option Digits :=
  let (num, den) := crossed range.value range.den ⟨1, power⟩
  let below : Digits := ⟨num / den, power⟩
  let above : Digits := ⟨num / den + 1, power⟩
  let rest := 2 * (num % den)
  match range.has below, range.has above with
  | true, true =>
    some (if rest < den then below else if den < rest then above
      else if below.digits % 2 = 0 then below else above)
  | true, false => some below
  | false, true => some above
  | false, false => none

def shortest (mantissa : Nat) (exponent : Int) : Digits :=
  let range := Interval.ofDouble mantissa exponent
  let leading := leadingPower range.value range.den
  match (List.range 17).findSome? fun (more : Nat) => range.neighbour? (leading - more) with
  | some found => found
  | none => ⟨mantissa, 0⟩

structure Format where
  least : Int
  most : Int
  nan : Text
  infinity : Text

def places (found : Digits) : Text × Int :=
  let all := ofNat found.digits
  let kept := (all.reverse.dropWhile (· == '0')).reverse
  (kept, (all.length : Int) + found.power)

def exponentText (exponent : Int) : Text :=
  (if exponent < 0 then '-' else '+') :: padZeros 2 (ofNat exponent.natAbs)

def positional (digits : Text) (point : Int) : Text :=
  if point <= 0 then ['0', '.'] ++ List.replicate (-point).toNat '0' ++ digits
  else if (digits.length : Int) <= point then
    digits ++ List.replicate (point.toNat - digits.length) '0' ++ ['.', '0']
  else digits.take point.toNat ++ '.' :: digits.drop point.toNat

def scientific (digits : Text) (point : Int) : Text :=
  match digits with
  | [] => []
  | [digit] => digit :: 'e' :: exponentText (point - 1)
  | digit :: rest => digit :: '.' :: rest ++ 'e' :: exponentText (point - 1)

def Format.write (format : Format) (number : Double) : Text :=
  let sign (negative : Bool) (text : Text) : Text := if negative then '-' :: text else text
  match number with
  | .nan _ => format.nan
  | .infinite negative => sign negative format.infinity
  | .finite negative mantissa exponent =>
    if mantissa = 0 then sign negative ['0', '.', '0']
    else
      let (digits, point) := places (shortest mantissa exponent)
      sign negative <|
        if format.least < point ∧ point <= format.most then positional digits point
        else scientific digits point

end Inlay.Decimal
