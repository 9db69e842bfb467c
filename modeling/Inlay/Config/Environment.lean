import Inlay.Decimal.Reading
import Inlay.File
import Inlay.Journal
import Inlay.Text.Character
import Inlay.Value.Basic

set_option autoImplicit false

namespace Inlay

open Text

abbrev Environment := List (Text × Text)

structure NumberFault where
  text : Text
  deriving Repr, DecidableEq

namespace Environment

def truth? (value : Text) : Option Bool :=
  let small := lower (strip value)
  if small = "true".toList then some true
  else if small = "false".toList then some false
  else none

def isWholeNumber (text : Text) : Bool :=
  let (_, digits) := Decimal.sign text
  digits != [] && digits.all isDigit

def coerce (value : Text) : Except NumberFault Scalar :=
  match truth? value with
  | some truth => .ok (.bool truth)
  | none =>
    if isWholeNumber (strip value) then
      match Decimal.int? 10 value with
      | some n => .ok (.int n)
      | none => .error ⟨value⟩
    else .ok (.text (strip value))

def mark : Text := "XBLOCK_"

def segments : Text → List Text
  | [] => [[]]
  | '_' :: '_' :: rest => [] :: segments rest
  | c :: rest => consHead c (segments rest)

def path? (name : Text) : Option (List Text) :=
  let keys := (segments name).map lower
  if keys.any (·.isEmpty) then none else some keys

def setAt (mapping : Mapping) : List Text → Value → Mapping
  | [], _ => mapping
  | [key], value => mapping.insert key value
  | key :: keys, value =>
    let inner := ((mapping.get? key).bind Value.asMap?).getD []
    mapping.insert key (.map (setAt inner keys value))

def override (values : Mapping) (name value : Text) : Except NumberFault (Mapping × Journal) :=
  match path? name with
  | none => .ok (values, [.malformedKey (mark ++ name)])
  | some path => (coerce value).map fun value => (setAt values path (.scalar value), [])

def own (environment : Environment) : List (Text × Text) :=
  let found := environment.filterMap fun (name, value) =>
    (after? mark name).map fun name => (name, value)
  found.mergeSort fun a b => Text.le a.1 b.1

def paths (environment : Environment) : List (List Text) :=
  environment.own.filterMap fun (name, _) => path? name

def overrideAll (values : Mapping) (journal : Journal) :
    List (Text × Text) → Journal × Except NumberFault Mapping
  | [] => (journal, .ok values)
  | (name, value) :: bindings =>
    match override values name value with
    | .error fault => (journal, .error fault)
    | .ok (values, noted) => overrideAll values (journal ++ noted) bindings

def overrides (environment : Environment) : Journal × Except NumberFault Mapping :=
  overrideAll [] [] environment.own

end Environment

structure Accounts where
  own : Text
  homes : List (Text × Text)
  deriving Repr, DecidableEq

inductive HomeFault
  | unknown (name : Text)
  | nullCharacter
  deriving Repr, DecidableEq

def Path.homeName? (text : Text) : Option Text :=
  match Path.tidy text with
  | '~' :: rest => some (rest.takeWhile (· != '/'))
  | _ => none

namespace Accounts

def home? (accounts : Accounts) (environment : Environment) (name : Text) : Option Text :=
  if name = [] then
    (environment.lookup "HOME".toList).orElse fun _ => accounts.homes.lookup accounts.own
  else accounts.homes.lookup name

def expand (accounts : Accounts) (environment : Environment) (text : Text) :
    Except HomeFault Text :=
  match Path.homeName? text with
  | none => .ok text
  | some name =>
    if name.contains (Char.ofNat 0) then .error .nullCharacter
    else
      match accounts.home? environment name with
      | none | some ('~' :: _) => .error (.unknown name)
      | some home =>
        let front := (home.reverse.dropWhile (· == '/')).reverse
        let rest := (Path.tidy text).drop (name.length + 1)
        .ok (if front ++ rest = [] then ['/'] else front ++ rest)

end Accounts
end Inlay
