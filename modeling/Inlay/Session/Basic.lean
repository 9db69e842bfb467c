import Inlay.Config.Settings
import Inlay.Failure
import Inlay.Import
import Inlay.Journal
import Inlay.Markup
import Inlay.Script.Declaration

set_option autoImplicit false

namespace Inlay

open Text Markup Script

/-- The texts of blocks and the blocks that they were parsed to are kept apart. The latest entry of
a path counts. -/
structure Store where
  raws : List (Text × Text) := []
  blocks : List (Text × Block) := []
  deriving Repr, DecidableEq

namespace Store

def raw? (store : Store) (path : Text) : Option Text :=
  store.raws.lookup path

def block? (store : Store) (path : Text) : Option Block :=
  store.blocks.lookup path

def contains (store : Store) (path : Text) : Bool :=
  (store.raw? path).isSome

/-- All that a store has for a path. -/
def entry (store : Store) (path : Text) : Option Text × Option Block :=
  (store.raw? path, store.block? path)

/-- Whether a store has anything for a path. -/
def knows (store : Store) (path : Text) : Bool :=
  store.contains path || (store.block? path).isSome

def putRaw (store : Store) (path raw : Text) : Store :=
  { store with raws := (path, raw) :: store.raws }

def putBlock (store : Store) (path : Text) (block : Block) : Store :=
  { store with blocks := (path, block) :: store.blocks }

section Lookups

variable (store : Store) (path other raw : Text) (block : Block)

theorem raw?_putRaw :
    (store.putRaw path raw).raw? other = if other = path then some raw else store.raw? other :=
  lookup_put ..

theorem block?_putBlock : (store.putBlock path block).block? other =
    if other = path then some block else store.block? other :=
  lookup_put ..

@[simp] theorem block?_putRaw : (store.putRaw path raw).block? other = store.block? other := rfl

@[simp] theorem raw?_putBlock : (store.putBlock path block).raw? other = store.raw? other := rfl

theorem knows_eq_false_iff :
    store.knows path = false ↔ store.raw? path = none ∧ store.block? path = none := by
  simp [knows, contains]

theorem knows_of_entry {first second : Store} (same : first.entry path = second.entry path) :
    first.knows path = second.knows path := by
  obtain ⟨raw, block⟩ := Prod.mk.inj same
  rw [knows, contains, raw, block, knows, contains]

end Lookups

end Store

structure Reader where
  read : Text → Except FileFault Text
  pauses : Text → Nat := fun _ => 0

structure Attempt where
  document : Text
  reference : Import
  ledger : Ledger

structure Session where
  settings : Settings := {}
  ledger : Ledger := .empty
  store : Store := {}
  journal : Journal := []
  attempts : List Attempt := []

def shownPath (written path : Text) : Text :=
  if written = [] then path else written

namespace Ledger

def grant (ledger : Ledger) (path : Text) (usage : Usage) (written : Text) :
    Except Failure Ledger :=
  match ledger.claim path usage with
  | .ok ledger => .ok ledger
  | .error earlier => .error (.reused (shownPath written path) usage earlier ledger.entries)

end Ledger

namespace Attempt

def path (attempt : Attempt) : Text :=
  attempt.reference.path

def usage (attempt : Attempt) : Usage :=
  ⟨attempt.document, attempt.reference.name⟩

def outcome (attempt : Attempt) : Except Failure Ledger :=
  attempt.ledger.grant attempt.path attempt.usage attempt.reference.blockPath

end Attempt

def weave (document current : Text) (reference : Import) (block : Block) : Except Failure Text :=
  match clashes (declaredNames current) (declaredNamesOf block.scripts) with
  | [] =>
    let bare := replaceFirst reference.statement [] current
    let scripted := mergeScripts bare block.scripts
    let filled := Placeholder.fill reference.name block.template scripted
    .ok (mergeStyles filled block.styles)
  | names => .error (.clash document reference.blockPath names)

namespace Session

def note (session : Session) (event : Event) : Session :=
  { session with journal := session.journal ++ [event] }

def reset (session : Session) : Session :=
  { session with ledger := .empty, store := {} }

def clearLedger (session : Session) : Session :=
  { session with ledger := .empty }

def clearStore (session : Session) : Session :=
  { session with store := {} }

def claim (session : Session) (path : Text) (usage : Usage) (written : Text) :
    Except Failure Session :=
  (session.ledger.grant path usage written).map fun ledger =>
    { session with ledger }.note (.claimed path usage.usedBy usage.name)

def claimImport (session : Session) (document : Text) (reference : Import) :
    Session × Except Failure Unit :=
  let attempt : Attempt := ⟨document, reference, session.ledger⟩
  let session := { session with attempts := session.attempts ++ [attempt] }
  match session.claim attempt.path attempt.usage reference.blockPath with
  | .ok session => (session, .ok ())
  | .error failure => (session, .error failure)

def storedText (session : Session) (path : Text) : Session × Option Text :=
  match session.store.raw? path with
  | some raw => (session.note (.stored path), some raw)
  | none => (session.note (.requested path), none)

def receiveText (session : Session) (path written : Text) (answer : Except FileFault Text) :
    Session × Except Failure Text :=
  match answer with
  | .ok raw => ({ session with store := session.store.putRaw path raw }, .ok raw)
  | .error cause =>
    (session.note (.unreadable path cause), .error (.unreadable (shownPath written path) path))

def keepBlock (session : Session) (path raw : Text) : Session × Block :=
  let block := Block.parse session.settings.templateTag raw
  ({ session with store := session.store.putBlock path block }, block)

def storedBlock (session : Session) (path : Text) : Session × Option Block :=
  match session.store.block? path with
  | some block => (session, some block)
  | none =>
    match session.storedText path with
    | (session, none) => (session, none)
    | (session, some raw) =>
      let (session, block) := session.keepBlock path raw
      (session, some block)

def receiveBlock (session : Session) (path written : Text) (answer : Except FileFault Text) :
    Session × Except Failure Block :=
  match session.receiveText path written answer with
  | (session, .error failure) => (session, .error failure)
  | (session, .ok raw) =>
    let (session, block) := session.keepBlock path raw
    (session, .ok block)

def load (reader : Reader) (session : Session) (path written : Text) :
    Session × Except Failure Text :=
  match session.storedText path with
  | (session, some raw) => (session, .ok raw)
  | (session, none) => session.receiveText path written (reader.read path)

def getBlock (reader : Reader) (session : Session) (path written : Text) :
    Session × Except Failure Block :=
  match session.storedBlock path with
  | (session, some block) => (session, .ok block)
  | (session, none) => session.receiveBlock path written (reader.read path)

def merge (session : Session) (document current : Text) (reference : Import) (block : Block) :
    Session × Except Failure Text :=
  match weave document current reference block with
  | .ok merged =>
    (session.note (.merged reference.blockPath document reference.name), .ok merged)
  | .error failure => (session, .error failure)

def applyImports (reader : Reader) (document : Text) :
    Session → Text → List Import → Session × Except Failure Text
  | session, current, [] => (session, .ok current)
  | session, current, reference :: references =>
    match session.claimImport document reference with
    | (session, .error failure) => (session, .error failure)
    | (session, .ok ()) =>
      match session.getBlock reader reference.path reference.blockPath with
      | (session, .error failure) => (session, .error failure)
      | (session, .ok block) =>
        match session.merge document current reference block with
        | (session, .error failure) => (session, .error failure)
        | (session, .ok merged) => applyImports reader document session merged references

def transform (reader : Reader) (session : Session) (document text : Text) :
    Session × Except Failure (Option Text) :=
  match Import.scan session.settings.blockSuffix document text with
  | [] => (session.note (.untouched document), .ok none)
  | reference :: references =>
    match session.applyImports reader document text (reference :: references) with
    | (session, .ok merged) => (session, .ok (some merged))
    | (session, .error failure) => (session, .error failure)

def accepts (session : Session) (document : Text) : Bool :=
  endsWith session.settings.hostSuffix document

def transformAccepted (reader : Reader) (session : Session) (document text : Text) :
    Session × Except Failure (Option Text) :=
  if session.accepts document then session.transform reader document text
  else (session, .ok none)

end Session
end Inlay
