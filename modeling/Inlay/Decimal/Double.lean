set_option autoImplicit false

namespace Inlay

inductive Double
  | nan (place : Nat)
  | infinite (negative : Bool)
  | finite (negative : Bool) (mantissa : Nat) (exponent : Int)
  deriving Repr, DecidableEq

namespace Double

def leastExponent : Int := -1074

def greatestExponent : Int := 971

def mantissaUnit : Nat := 0x10000000000000

def roundDiv (num den : Nat) : Nat :=
  let quotient := num / den
  let rest := 2 * (num % den)
  if rest < den then quotient
  else if den < rest then quotient + 1
  else quotient + quotient % 2

def scale (num den : Nat) (exponent : Int) : Nat × Nat :=
  if 0 <= exponent then (num, den * Nat.pow 2 exponent.toNat)
  else (num * Nat.pow 2 (-exponent).toNat, den)

def exponentOf (num den : Nat) : Int :=
  let guess : Int := (Nat.log2 num : Int) - (Nat.log2 den : Int) - 52
  let (n, d) := scale num den guess
  max leastExponent (if n < d * mantissaUnit then guess - 1 else guess)

def ofRatio (negative : Bool) (num den : Nat) : Double :=
  if num = 0 then .finite negative 0 leastExponent
  else
    let exponent := exponentOf num den
    let (n, d) := scale num den exponent
    let mantissa := roundDiv n d
    let (mantissa, exponent) :=
      if mantissa = 2 * mantissaUnit then (mantissaUnit, exponent + 1) else (mantissa, exponent)
    if greatestExponent < exponent then .infinite negative
    else .finite negative mantissa exponent

def ofDecimal (negative : Bool) (digits : Nat) (power : Int) : Double :=
  let size : Int := (Nat.toDigits 10 digits).length
  if digits = 0 then .finite negative 0 leastExponent
  else if 400 < size + power then .infinite negative
  else if size + power < -400 then .finite negative 0 leastExponent
  else if 0 <= power then ofRatio negative (digits * Nat.pow 10 power.toNat) 1
  else ofRatio negative digits (Nat.pow 10 (-power).toNat)

def ofNat (n : Nat) : Double :=
  ofRatio false n 1

def neg : Double → Double
  | nan place => nan place
  | infinite negative => infinite (!negative)
  | finite negative mantissa exponent => finite (!negative) mantissa exponent

def toRatio (mantissa : Nat) (exponent : Int) : Nat × Nat :=
  if 0 <= exponent then (mantissa * Nat.pow 2 exponent.toNat, 1)
  else (mantissa, Nat.pow 2 (-exponent).toNat)

def ofSignedRatio (zeroSign : Bool) (num : Int) (den : Nat) : Double :=
  if num = 0 then .finite zeroSign 0 leastExponent
  else ofRatio (decide (num < 0)) num.natAbs den

def signed (negative : Bool) (n : Nat) : Int :=
  if negative then -(n : Int) else n

def add : Double → Double → Double
  | finite a m e, finite b n f =>
    let (num, den) := toRatio m e
    let (num', den') := toRatio n f
    ofSignedRatio (a && b) (signed a (num * den') + signed b (num' * den)) (den * den')
  | infinite a, infinite b => if a = b then infinite a else nan 0
  | infinite a, finite _ _ _ => infinite a
  | finite _ _ _, infinite b => infinite b
  | _, _ => nan 0

def mul : Double → Double → Double
  | finite a m e, finite b n f =>
    let (num, den) := toRatio m e
    let (num', den') := toRatio n f
    ofRatio (a != b) (num * num') (den * den')
  | infinite a, infinite b => infinite (a != b)
  | infinite a, finite b n _ => if n = 0 then nan 0 else infinite (a != b)
  | finite a m _, infinite b => if m = 0 then nan 0 else infinite (a != b)
  | _, _ => nan 0

def isInt (number : Double) (n : Int) : Bool :=
  match number with
  | finite negative mantissa exponent =>
    let (a, b) := toRatio mantissa exponent
    decide ((if negative then -(a : Int) else a) = n * b)
  | _ => false

def same : Double → Double → Bool
  | nan a, nan b => a == b
  | infinite a, infinite b => a == b
  | finite a m e, finite b n f => m == n && e == f && (a == b || m == 0)
  | _, _ => false

end Double
end Inlay
