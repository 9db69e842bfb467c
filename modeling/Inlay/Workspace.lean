import Inlay.File
import Inlay.Text.Basic

set_option autoImplicit false

namespace Inlay

open Text

inductive Entry
  | file (bytes : Bytes)
  | directory
  deriving Repr, DecidableEq

abbrev Place := List Text

/-- The encodings besides the four that are written out, and how often a read is suspended. -/
structure Machine where
  encodings : Text → Registration := fun _ => .unknown
  pauses : Text → Nat := fun _ => 1

structure Workspace where
  entries : List (Place × Entry) := []
  machine : Machine := {}

namespace Workspace

def get? (workspace : Workspace) (place : Place) : Option Entry :=
  if place = [] then some .directory else workspace.entries.lookup place

def put (workspace : Workspace) (place : Place) (entry : Entry) : Workspace :=
  { workspace with
    entries := workspace.entries.filter (fun known => known.1 != place) ++ [(place, entry)] }

theorem get?_put {workspace : Workspace} {place other : Place} {entry : Entry} (some_place : place ≠ []) :
    (workspace.put place entry).get? other
      = if other = place then some entry else workspace.get? other := by
  have found (entries : List (Place × Entry)) :
      (entries.filter (fun known => known.1 != place) ++ [(place, entry)]).lookup other
        = if other = place then some entry else entries.lookup other := by
    induction entries with
    | nil =>
      by_cases same : other = place
      next => simp [same]
      next =>
        have apart : (other == place) = false := by simpa using same
        simp [List.lookup_cons, apart, same]
    | cons known entries ih =>
      obtain ⟨name, value⟩ := known
      by_cases replaced : name = place
      next =>
        simp only [replaced, bne_self_eq_false, Bool.false_eq_true, not_false_eq_true,
          List.filter_cons_of_neg]
        rw [ih]
        by_cases same : other = place
        next => simp [same]
        next =>
          have apart : (other == place) = false := by simpa using same
          simp [List.lookup_cons, apart, same]
      next =>
        have kept : (name != place) = true := by simpa using replaced
        simp only [List.filter_cons, kept, if_true, List.cons_append, List.lookup_cons]
        by_cases here : other = name
        next => simp [here, replaced]
        next =>
          have apart : (other == name) = false := by simpa using here
          simp only [apart]
          exact ih
  unfold get? put
  by_cases top : other = []
  next => simp [top, Ne.symm some_place]
  next => simp only [top, if_false]; exact found workspace.entries

def nameLimit : Nat := 255

def pathLimit : Nat := 4096

def enter (workspace : Workspace) (shown : Text) (place : Place) (component : Text) :
    Except FileFault Place :=
  match workspace.get? place with
  | none => .error (.missing shown)
  | some (.file _) => .error (.notDirectory shown)
  | some .directory =>
    if component = ['.', '.'] then .ok place.dropLast
    else if nameLimit < (Utf8.encode component).length then .error (.nameTooLong shown)
    else .ok (place ++ [component])

def componentsOf (path : Text) : List Text :=
  (splitAt '/' path).filter fun component => component != [] && component != ['.']

def locate (workspace : Workspace) (shown path : Text) : Except FileFault Place :=
  if path.contains (Char.ofNat 0) then .error .nullCharacter
  else if pathLimit <= (Utf8.encode shown).length then .error (.nameTooLong shown)
  else (componentsOf path).foldlM (workspace.enter shown) []

def entryAt (workspace : Workspace) (shown path : Text) : Except FileFault Entry := do
  match workspace.get? (← workspace.locate shown path) with
  | some entry => return entry
  | none => throw (.missing shown)

def has (workspace : Workspace) (path : Text) : Except FileFault Bool :=
  match workspace.entryAt path path with
  | .ok _ => .ok true
  | .error (.nameTooLong shown) => .error (.nameTooLong shown)
  | .error _ => .ok false

def hasDirectory (workspace : Workspace) (path : Text) : Except FileFault Bool :=
  match workspace.entryAt path path with
  | .ok entry => .ok (entry == .directory)
  | .error (.nameTooLong shown) => .error (.nameTooLong shown)
  | .error _ => .ok false

def read (workspace : Workspace) (shown path : Text) : Except FileFault Bytes := do
  match ← workspace.entryAt shown path with
  | .file bytes => return bytes
  | .directory => throw (.isDirectory shown)

def coding (workspace : Workspace) (name : Text) : Except FileFault Coding :=
  match Codec.ofName? name with
  | some codec => .ok codec.coding
  | none =>
    match workspace.machine.encodings name with
    | .text coding => .ok coding
    | .binary => .error (.binaryEncoding name)
    | .unknown => .error (.unknownEncoding name)

theorem coding_of_ofName? {workspace : Workspace} {name : Text} {codec : Codec}
    (known : Codec.ofName? name = some codec) : workspace.coding name = .ok codec.coding := by
  rw [coding, known]

def readText (workspace : Workspace) (encoding shown path : Text) : Except FileFault Text := do
  if encoding.contains (Char.ofNat 0) then throw .nullCharacter
  let bytes ← workspace.read shown path
  let coding ← workspace.coding encoding
  match coding.decode bytes with
  | .ok text => return unifyLines text
  | .error cause => throw (.ofDecode cause)

def makeOne (workspace : Workspace) : List Text → Except FileFault Workspace
  | [] => .ok workspace
  | component :: outer => do
    let shown := '/' :: join ['/'] (component :: outer).reverse
    if pathLimit <= (Utf8.encode shown).length then throw (.nameTooLong shown)
    let around ← outer.reverse.foldlM (workspace.enter shown) []
    let place ← workspace.enter shown around component
    match workspace.get? place with
    | some .directory => return workspace
    | some (.file _) => throw (.occupied shown)
    | none => return workspace.put place .directory

def makeFrom (workspace : Workspace) : List Text → Except FileFault Workspace
  | [] => .ok workspace
  | component :: outer =>
    match workspace.makeOne (component :: outer) with
    | .error (.missing _) => do
      let workspace ← workspace.makeFrom outer
      workspace.makeOne (component :: outer)
    | made => made

def makeDirectories (workspace : Workspace) (path : Text) : Except FileFault Workspace :=
  if path.contains (Char.ofNat 0) then .error .nullCharacter
  else workspace.makeFrom (componentsOf path).reverse

def write (workspace : Workspace) (path : Text) (bytes : Bytes) : Except FileFault Workspace := do
  let place ← workspace.locate path path
  match workspace.get? place with
  | some .directory => throw (.isDirectory path)
  | some (.file _) => return workspace.put place (.file bytes)
  | none =>
    match workspace.get? place.dropLast with
    | some .directory => return workspace.put place (.file bytes)
    | _ => throw (.missing path)

/-- A text that its encoding refuses leaves an empty file behind. -/
def writeText (workspace : Workspace) (encoding path text : Text) :
    Workspace × Except FileFault Unit :=
  match workspace.write path [] with
  | .error fault => (workspace, .error fault)
  | .ok emptied =>
    match workspace.coding encoding with
    | .error fault => (emptied, .error fault)
    | .ok coding =>
      match coding.encode text with
      | .error cause => (emptied, .error (.ofEncode cause))
      | .ok bytes =>
        match workspace.write path bytes with
        | .error fault => (emptied, .error fault)
        | .ok written => (written, .ok ())

section Machine

variable {workspace next : Workspace} {path : Text} {bytes : Bytes} {components : List Text}

theorem machine_of_makeOne (made : workspace.makeOne components = .ok next) :
    next.machine = workspace.machine := by
  cases components with
  | nil => cases made; rfl
  | cons component outer =>
    simp only [makeOne, bind, Except.bind, pure, Except.pure, throw, throwThe,
      MonadExceptOf.throw] at made
    split at made
    next => cases made
    next =>
      split at made
      next => cases made
      next =>
        split at made
        next => cases made
        next => split at made <;> cases made <;> rfl

theorem machine_of_makeFrom (made : workspace.makeFrom components = .ok next) :
    next.machine = workspace.machine := by
  induction components generalizing workspace next with
  | nil => cases made; rfl
  | cons component outer ih =>
    unfold makeFrom at made
    split at made
    next =>
      cases around : workspace.makeFrom outer with
      | error fault => simp [around, bind, Except.bind] at made
      | ok middle =>
        simp only [around, bind, Except.bind] at made
        exact (machine_of_makeOne made).trans (ih around)
    next => exact machine_of_makeOne made

theorem machine_of_makeDirectories (made : workspace.makeDirectories path = .ok next) :
    next.machine = workspace.machine := by
  unfold makeDirectories at made
  split at made
  next => cases made
  next => exact machine_of_makeFrom made

theorem machine_of_write (written : workspace.write path bytes = .ok next) :
    next.machine = workspace.machine := by
  simp only [write, bind, Except.bind, pure, Except.pure, throw, throwThe,
    MonadExceptOf.throw] at written
  split at written
  next => cases written
  next =>
    split at written
    next => cases written
    next => cases written; rfl
    next => split at written <;> cases written; rfl

theorem machine_writeText (workspace : Workspace) (encoding path text : Text) :
    (workspace.writeText encoding path text).1.machine = workspace.machine := by
  unfold writeText
  split
  next => rfl
  next emptied cleared =>
    have same := machine_of_write cleared
    split
    next => exact same
    next =>
      split
      next => exact same
      next =>
        split
        next => exact same
        next written => exact machine_of_write written

theorem coding_of_machine (same : next.machine = workspace.machine) (name : Text) :
    next.coding name = workspace.coding name := by
  rw [coding, coding, same]

end Machine

def filesBelow (workspace : Workspace) (place : Place) : List Place :=
  workspace.entries.filterMap fun (known, entry) =>
    match entry with
    | .file _ =>
      if place.isPrefixOf known && place != known then some (known.drop place.length) else none
    | .directory => none

def addDirectories (workspace : Workspace) (place : Place) : List Text → Workspace
  | [] => workspace
  | component :: components =>
    let place := place ++ [component]
    let added :=
      match workspace.get? place with
      | some .directory => workspace
      | _ => workspace.put place .directory
    added.addDirectories place components

def addDirectory (workspace : Workspace) (place : Place) : Workspace :=
  workspace.addDirectories [] place

def addFile (workspace : Workspace) (place : Place) (bytes : Bytes) : Workspace :=
  (workspace.addDirectory place.dropLast).put place (.file bytes)

end Workspace
end Inlay
