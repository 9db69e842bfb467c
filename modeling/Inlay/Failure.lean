import Inlay.Json
import Inlay.Text.Basic

set_option autoImplicit false

namespace Inlay

open Text

structure Usage where
  usedBy : Text
  name : Text
  deriving Repr, DecidableEq

structure Ledger where
  entries : List (Text × Usage) := []
  distinct : (entries.map Prod.fst).Nodup := by simp

namespace Ledger

def empty : Ledger := {}

def paths (ledger : Ledger) : List Text :=
  ledger.entries.map Prod.fst

def get? (ledger : Ledger) (path : Text) : Option Usage :=
  ledger.entries.lookup path

def contains (ledger : Ledger) (path : Text) : Bool :=
  (ledger.get? path).isSome

def size (ledger : Ledger) : Nat :=
  ledger.entries.length

theorem lookup_eq_none_iff {A : Type} {entries : List (Text × A)} {path : Text} :
    entries.lookup path = none ↔ path ∉ entries.map Prod.fst := by
  induction entries with
  | nil => simp
  | cons entry entries ih =>
    obtain ⟨other, value⟩ := entry
    by_cases same : path = other
    next => simp [same]
    next =>
      have apart : (path == other) = false := by simpa using same
      simp [List.lookup_cons, apart, same, ih]

theorem get?_eq_none_iff {ledger : Ledger} {path : Text} :
    ledger.get? path = none ↔ path ∉ ledger.paths :=
  lookup_eq_none_iff

def claim (ledger : Ledger) (path : Text) (usage : Usage) : Except Usage Ledger :=
  match missing : ledger.get? path with
  | some earlier => .error earlier
  | none => .ok
    { entries := ledger.entries ++ [(path, usage)]
      distinct := by
        have fresh := get?_eq_none_iff.1 missing
        simp only [paths] at fresh
        rw [List.map_append, List.nodup_append]
        refine ⟨ledger.distinct, by simp, ?_⟩
        intro a left b right same
        simp only [List.map_cons, List.map_nil, List.mem_singleton] at right
        exact fresh (right ▸ same ▸ left) }

theorem claim_eq_error_iff {ledger : Ledger} {path : Text} {usage earlier : Usage} :
    ledger.claim path usage = .error earlier ↔ ledger.get? path = some earlier := by
  unfold claim
  split
  next found => simp [found]
  next missing => simp [missing]

theorem entries_of_claim {ledger next : Ledger} {path : Text} {usage : Usage}
    (recorded : ledger.claim path usage = .ok next) :
    path ∉ ledger.paths ∧ next.entries = ledger.entries ++ [(path, usage)] := by
  unfold claim at recorded
  split at recorded
  next => cases recorded
  next missing =>
    cases recorded
    exact ⟨get?_eq_none_iff.1 missing, rfl⟩

end Ledger

structure Issue where
  place : List Text
  message : Text
  isLegible : Bool := true
  deriving Repr, DecidableEq

inductive Failure
  | reused (shown : Text) (current earlier : Usage) (usages : List (Text × Usage))
  | unreadable (shown path : Text)
  | clash (document blockPath : Text) (names : List Text)
  | invalidConfig (issues : List Issue)
  | notMapping (path : Text)
  deriving Repr, DecidableEq

namespace Failure

def usageLine (entry : Text × Usage) : Text :=
  "  - ".toList ++ entry.1 ++ " (imported as \"".toList ++ entry.2.name ++ "\" in ".toList
    ++ entry.2.usedBy ++ [')']

def reusedMessage (shown : Text) (current earlier : Usage) (usages : List (Text × Usage)) : Text :=
  join ['\n']
    ["XBlock file \"".toList ++ shown ++ "\" is already used.".toList,
     "Current file: ".toList ++ current.usedBy ++ " (trying to import as \"".toList ++ current.name
       ++ "\")".toList,
     "Previous usage: ".toList ++ earlier.usedBy ++ " (imported as \"".toList ++ earlier.name
       ++ "\")".toList,
     [],
     "All XBlock usages:",
     join ['\n'] (usages.map usageLine),
     [],
     ("XBlocks can only be used once. Please ensure you're not accidentally " ++
       "importing the same XBlock multiple times.").toList]

def placeText (place : List Text) : Text :=
  match join ['/'] place with
  | [] => "<root>"
  | c :: text => c :: text

def message : Failure → Text
  | reused shown current earlier usages => reusedMessage shown current earlier usages
  | unreadable shown _ =>
    "Failed to read XBlock file: ".toList ++ shown
      ++ ". Please ensure the file exists and is accessible.".toList
  | clash document blockPath names =>
    "Variable name conflict detected in \"".toList ++ document ++ "\" when importing \"".toList
      ++ blockPath ++ "\".\nConflicting variables: ".toList ++ join [',', ' '] names
  | invalidConfig issues =>
    "Invalid xblock configuration:\n".toList ++ join ['\n'] (issues.map fun issue =>
      "- ".toList ++ placeText issue.place ++ [':', ' '] ++ issue.message)
  | notMapping path => "Project config must be a YAML mapping: ".toList ++ path

def code : Failure → Text
  | reused .. => "DuplicateUsageError"
  | unreadable .. => "BlockReadError"
  | clash .. => "VariableConflictError"
  | invalidConfig .. => "ConfigValidationError"
  | notMapping .. => "ConfigValidationError"

def usageFields (usage : Usage) : List (Text × Json) :=
  [("used_by", usage.usedBy), ("alias", usage.name)]

def context : Failure → List (Text × Json)
  | reused shown current earlier usages =>
    [("block_path", shown), ("current", .object (usageFields current)),
     ("original", .object (usageFields earlier)),
     ("usages", .list (usages.map fun (path, usage) =>
       .object (("path".toList, .text path) :: usageFields usage)))]
  | unreadable shown path => [("block_path", shown), ("resolved_path", path)]
  | clash document blockPath names =>
    [("document_id", document), ("block_path", blockPath),
     ("conflicts", .list (names.map Json.text))]
  | invalidConfig issues => [("errors", .list (issues.map fun issue => issue.message))]
  | notMapping path => [("path", path)]

end Failure

structure Payload where
  message : Text
  code : Text
  context : List (Text × Json)

def Payload.fields (payload : Payload) : List (Text × Json) :=
  [("message", payload.message), ("code", payload.code), ("context", .object payload.context)]

def Failure.payload (failure : Failure) : Payload :=
  ⟨failure.message, failure.code, failure.context⟩

structure Complaint where
  message : Text
  payload? : Option Payload := none

def Failure.complaint (failure : Failure) : Complaint :=
  ⟨failure.message, some failure.payload⟩

structure Console where
  asJson : Bool := false
  layout : Json.Layout := .lines 2

namespace Console

def line (text : Text) : Text :=
  text ++ ['\n']

def document (console : Console) (value : Json) : Text :=
  line (value.write console.layout)

def success (console : Console) (status message : Text) (data : List (Text × Json)) : Text :=
  if console.asJson then
    console.document (.object (Json.addFields [("status".toList, .text status)] data))
  else line message

def error (console : Console) (code message : Text) (complaint : Complaint) : Text :=
  let shown := if message = [] then complaint.message else message
  if console.asJson then
    let fields :=
      match complaint.payload? with
      | some payload => payload.fields
      | none => [("message".toList, .text shown)]
    console.document (.object (Json.addFields [("error".toList, .text code)] fields))
  else line ("Error: ".toList ++ shown)

end Console
end Inlay
