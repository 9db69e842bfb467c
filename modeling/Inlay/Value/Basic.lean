import Inlay.Decimal.Double
import Inlay.Text.Basic
import Inlay.Text.Codec

set_option autoImplicit false

namespace Inlay

open Text

structure Date where
  year : Nat
  month : Nat
  day : Nat
  deriving Repr, DecidableEq

namespace Date

def isLeapYear (year : Nat) : Bool :=
  (year % 4 == 0 && year % 100 != 0) || year % 400 == 0

def daysInMonth (year month : Nat) : Nat :=
  if month = 2 then (if isLeapYear year then 29 else 28)
  else if month = 4 ∨ month = 6 ∨ month = 9 ∨ month = 11 then 30
  else 31

def isValid (date : Date) : Bool :=
  decide (1 <= date.year ∧ date.year <= 9999 ∧ 1 <= date.month ∧ date.month <= 12 ∧ 1 <= date.day
    ∧ date.day <= daysInMonth date.year date.month)

def ordinal (date : Date) : Nat :=
  let past := date.year - 1
  let months := List.range (date.month - 1)
  let days := months.foldl (fun total month => total + daysInMonth date.year (month + 1)) 0
  past * 365 + past / 4 - past / 100 + past / 400 + days + (date.day - 1)

def two (n : Nat) : Text :=
  padZeros 2 (ofNat n)

def toText (date : Date) : Text :=
  padZeros 4 (ofNat date.year) ++ '-' :: two date.month ++ '-' :: two date.day

end Date

structure Moment where
  date : Date
  hour : Nat
  minute : Nat
  second : Nat
  microsecond : Nat
  offset? : Option Int
  deriving Repr, DecidableEq

namespace Moment

def isValid (moment : Moment) : Bool :=
  moment.date.isValid && decide (moment.hour <= 23 ∧ moment.minute <= 59 ∧ moment.second <= 59)
    && moment.offset?.all fun offset => decide (offset.natAbs < 24 * 60)

def instant (moment : Moment) : Int :=
  let minutes : Int := (moment.date.ordinal * 24 + moment.hour) * 60 + moment.minute
  ((minutes - moment.offset?.getD 0) * 60 + moment.second) * 1000000 + moment.microsecond

def same (a b : Moment) : Bool :=
  a.offset?.isSome == b.offset?.isSome && a.instant == b.instant

def offsetText (offset : Int) : Text :=
  (if offset < 0 then '-' else '+') :: Date.two (offset.natAbs / 60)
    ++ ':' :: Date.two (offset.natAbs % 60)

def toText (moment : Moment) : Text :=
  moment.date.toText ++ ' ' :: Date.two moment.hour ++ ':' :: Date.two moment.minute
    ++ ':' :: Date.two moment.second
    ++ (if moment.microsecond = 0 then []
      else '.' :: padZeros 6 (ofNat moment.microsecond))
    ++ (match moment.offset? with
      | some offset => offsetText offset
      | none => [])

end Moment

inductive Scalar
  | null
  | bool (value : Bool)
  | int (value : Int)
  | float (value : Double)
  | text (value : Text)
  | date (value : Date)
  | moment (value : Moment)
  | bytes (value : Bytes)
  deriving Repr, DecidableEq

namespace Scalar

instance : Coe Text Scalar := ⟨text⟩

instance : Coe String Scalar := ⟨fun value => text value⟩

def whole? : Scalar → Option Int
  | bool value => some (if value then 1 else 0)
  | int value => some value
  | _ => none

def same (a b : Scalar) : Bool :=
  match a.whole?, b.whole? with
  | some m, some n => m == n
  | some m, none =>
    match b with
    | float value => value.isInt m
    | _ => false
  | none, some n =>
    match a with
    | float value => value.isInt n
    | _ => false
  | none, none =>
    match a, b with
    | float x, float y => x.same y
    | moment x, moment y => x.same y
    | float _, _ => false
    | moment _, _ => false
    | x, y => x == y

end Scalar

inductive Value
  | scalar (value : Scalar)
  | list (items : List Value)
  | pair (first second : Value)
  | set (members : List Scalar)
  | map (entries : List (Scalar × Value))
  | again (isMapping : Bool)
  deriving Repr

abbrev Mapping := List (Scalar × Value)

namespace Mapping

def get? (mapping : Mapping) (key : Scalar) : Option Value :=
  (mapping.find? fun entry => entry.1.same key).map (·.2)

def contains (mapping : Mapping) (key : Scalar) : Bool :=
  mapping.any fun entry => entry.1.same key

def insert : Mapping → Scalar → Value → Mapping
  | [], key, value => [(key, value)]
  | (other, old) :: rest, key, value =>
    if other.same key then (other, value) :: rest else (other, old) :: Mapping.insert rest key value

def ofEntries (entries : List (Scalar × Value)) : Mapping :=
  entries.foldl (fun mapping (key, value) => Mapping.insert mapping key value) []

end Mapping

namespace Value

instance : Inhabited Value := ⟨scalar .null⟩

def null : Value := scalar .null

def text (value : Text) : Value := scalar (.text value)

def isMap : Value → Bool
  | map _ => true
  | _ => false

def asMap? : Value → Option Mapping
  | map entries => some entries
  | _ => none

def asText? : Value → Option Text
  | scalar (.text value) => some value
  | _ => none

def isEmpty : Value → Bool
  | scalar .null => true
  | scalar (.bool value) => !value
  | scalar (.int value) => value == 0
  | scalar (.float value) => value.isInt 0
  | scalar (.text value) => value.isEmpty
  | scalar (.bytes value) => value.isEmpty
  | scalar _ => false
  | list items => items.isEmpty
  | pair _ _ => false
  | set members => members.isEmpty
  | map entries => entries.isEmpty
  | again _ => false

end Value

mutual

def Value.over : Value → Value → Value
  | .map lower, .map upper => .map (Mapping.over lower upper)
  | _, upper => upper

def Mapping.over (lower : Mapping) : Mapping → Mapping
  | [] => lower
  | (key, value) :: upper =>
    let joined :=
      match Mapping.get? lower key with
      | some old => Value.over old value
      | none => value
    Mapping.over (Mapping.insert lower key joined) upper

end

inductive LayerFault
  | notEntries
  | notPair
  | notMapping
  deriving Repr, DecidableEq

namespace Value

def asKey? : Value → Option Scalar
  | scalar value => some value
  | _ => none

def entry? : Value → Except LayerFault (Scalar × Value)
  | scalar (.text [key, value]) => .ok (.text [key], text [value])
  | scalar (.text _) => .error .notPair
  | list [key, value] | pair key value =>
    match key.asKey? with
    | some key => .ok (key, value)
    | none => .error .notEntries
  | list _ => .error .notPair
  | map [(key, _), (value, _)] => .ok (key, scalar value)
  | map _ => .error .notPair
  | _ => .error .notEntries

def entries? : Value → Except LayerFault Mapping
  | map entries => .ok entries
  | list items => (items.mapM entry?).map Mapping.ofEntries
  | scalar (.text []) => .ok []
  | scalar (.text _) => .error .notPair
  | _ => .error .notEntries

def layer (lower upper : Value) : Except LayerFault Mapping := do
  let lower ← lower.entries?
  if upper.isEmpty then return lower
  else
    match upper with
    | map upper => return Mapping.over lower upper
    | _ => throw .notMapping

end Value
end Inlay
