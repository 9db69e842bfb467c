import Inlay.Decimal.Reading
import Inlay.Decimal.Shortest
import Inlay.Value.Basic

set_option autoImplicit false

namespace Inlay

open Text

namespace Scalar

def decimal : Decimal.Format :=
  ⟨-4, 16, "nan", "inf"⟩

def escapeByte (quote : Char) (b : UInt8) : Text :=
  let c := Char.ofNat b.toNat
  if c = quote ∨ c = '\\' then ['\\', c]
  else if c = '\n' then ['\\', 'n']
  else if c = '\r' then ['\\', 'r']
  else if c = '\t' then ['\\', 't']
  else if 32 <= b.toNat ∧ b.toNat <= 126 then [c]
  else '\\' :: 'x' :: hex 2 b.toNat

def quotedBytes (value : Bytes) : Text :=
  let quote := quoteOf (value.map fun b => Char.ofNat b.toNat)
  'b' :: quote :: value.flatMap (escapeByte quote) ++ [quote]

def numbers (values : List Nat) : Text :=
  join [',', ' '] (values.map ofNat)

def clock (moment : Moment) : List Nat :=
  if moment.microsecond ≠ 0 then
    [moment.hour, moment.minute, moment.second, moment.microsecond]
  else if moment.second ≠ 0 then [moment.hour, moment.minute, moment.second]
  else [moment.hour, moment.minute]

def offsetText (offset : Int) : Text :=
  let seconds := offset * 60
  if offset = 0 then "datetime.timezone.utc"
  else
    "datetime.timezone(datetime.timedelta(".toList
      ++ (if offset < 0 then
          "days=-1, seconds=".toList ++ ofInt (seconds + 86400)
        else "seconds=".toList ++ ofInt seconds)
      ++ [')', ')']

def quoted : Scalar → Text
  | null => "None"
  | bool true => "True"
  | bool false => "False"
  | int value => ofInt value
  | float value => decimal.write value
  | text value => Text.quoted value
  | date value =>
    "datetime.date(".toList ++ numbers [value.year, value.month, value.day] ++ [')']
  | moment value =>
    "datetime.datetime(".toList
      ++ numbers ([value.date.year, value.date.month, value.date.day] ++ clock value)
      ++ (match value.offset? with
        | some offset => ", tzinfo=".toList ++ offsetText offset
        | none => [])
      ++ [')']
  | bytes value => quotedBytes value

def display : Scalar → Text
  | text value => value
  | date value => value.toText
  | moment value => value.toText
  | value => value.quoted

def isLegible : Scalar → Bool
  | int value => decide (value.natAbs < Nat.pow 10 Decimal.digitLimit)
  | _ => true

end Scalar

namespace Value

mutual

def isLegible : Value → Bool
  | scalar value => value.isLegible
  | list items => areLegible items
  | pair first second => isLegible first && isLegible second
  | set members => members.all Scalar.isLegible
  | map entries => areLegibleEntries entries
  | again _ => true

def areLegible : List Value → Bool
  | [] => true
  | item :: items => isLegible item && areLegible items

def areLegibleEntries : List (Scalar × Value) → Bool
  | [] => true
  | (key, value) :: entries => key.isLegible && isLegible value && areLegibleEntries entries

end

mutual

def quoted : Value → Text
  | scalar value => value.quoted
  | list items => '[' :: join [',', ' '] (quotedItems items) ++ [']']
  | pair first second => '(' :: quoted first ++ [',', ' '] ++ quoted second ++ [')']
  | set [] => "set()"
  | set members =>
    '\x7b' :: join [',', ' '] (members.map Scalar.quoted) ++ ['\x7d']
  | map entries => '\x7b' :: join [',', ' '] (quotedEntries entries) ++ ['\x7d']
  | again true => "\x7b...\x7d"
  | again false => "[...]"

def quotedItems : List Value → List Text
  | [] => []
  | item :: items => quoted item :: quotedItems items

def quotedEntries : List (Scalar × Value) → List Text
  | [] => []
  | (key, value) :: entries =>
    (key.quoted ++ [':', ' '] ++ quoted value) :: quotedEntries entries

end

def display : Value → Text
  | scalar value => value.display
  | value => value.quoted

end Value
end Inlay
