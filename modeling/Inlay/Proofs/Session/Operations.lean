import Inlay.Session.Concurrent

set_option autoImplicit false

namespace Inlay

open Text Markup

-- The reader that answers at once.
def Reader.still (reader : Reader) : Reader :=
  { reader with pauses := fun _ => 0 }

def Failure.isReuse : Failure → Bool
  | .reused .. => true
  | _ => false

def Import.record (document : Text) (reference : Import) : Text × Usage :=
  (reference.path, ⟨document, reference.name⟩)

namespace Ledger

variable {ledger next : Ledger} {path written : Text} {usage earlier : Usage} {failure : Failure}

theorem grant_of_recorded (recorded : ledger.get? path = some earlier) :
    ledger.grant path usage written =
      .error (.reused (shownPath written path) usage earlier ledger.entries) := by
  rw [grant, claim_eq_error_iff.2 recorded]

theorem recorded_of_grant (refused : ledger.grant path usage written = .error failure) :
    ∃ earlier, ledger.get? path = some earlier ∧
      failure = .reused (shownPath written path) usage earlier ledger.entries := by
  unfold grant at refused
  split at refused
  next => cases refused
  next earlier taken =>
    cases refused
    exact ⟨earlier, claim_eq_error_iff.1 taken, rfl⟩

theorem entries_of_grant (granted : ledger.grant path usage written = .ok next) :
    path ∉ ledger.paths ∧ next.entries = ledger.entries ++ [(path, usage)] := by
  unfold grant at granted
  split at granted
  next recorded => cases granted; exact entries_of_claim recorded
  next => cases granted

end Ledger

namespace Session

variable (session : Session)

@[simp] theorem note_store (event : Event) : (session.note event).store = session.store := rfl

@[simp] theorem note_settings (event : Event) :
    (session.note event).settings = session.settings := rfl

-- The paths that a session has asked its reader for.
def reads : List Text :=
  session.journal.reads

@[simp] theorem reads_note (event : Event) :
    (session.note event).reads = session.reads ++ event.requestedPath?.toList := by
  cases asked : event.requestedPath? <;> simp [reads, note, Journal.reads, asked]

@[simp] theorem reads_mk (settings : Settings) (ledger : Ledger) (store : Store)
    (attempts : List Attempt) :
    (Session.mk settings ledger store session.journal attempts).reads = session.reads := rfl

@[simp] theorem requestedPath?_requested (path : Text) :
    (Event.requested path).requestedPath? = some path := rfl

@[simp] theorem requestedPath?_stored (path : Text) : (Event.stored path).requestedPath? = none :=
  rfl

@[simp] theorem requestedPath?_unreadable (path : Text) (cause : FileFault) :
    (Event.unreadable path cause).requestedPath? = none := rfl

structure Keeps (before after : Session) : Prop where
  ledger : after.ledger = before.ledger
  settings : after.settings = before.settings
  attempts : after.attempts = before.attempts

theorem Keeps.refl : session.Keeps session :=
  ⟨rfl, rfl, rfl⟩

theorem Keeps.trans {first second third : Session} (early : first.Keeps second)
    (late : second.Keeps third) : first.Keeps third :=
  ⟨late.ledger.trans early.ledger, late.settings.trans early.settings,
    late.attempts.trans early.attempts⟩

structure Attempted (document : Text) (reference : Import) (before after : Session) : Prop where
  attempts : after.attempts = before.attempts ++ [⟨document, reference, before.ledger⟩]
  store : after.store = before.store
  settings : after.settings = before.settings
  journal : ∃ events, after.journal = before.journal ++ events ∧ Journal.reads events = []

theorem Attempted.reads {document : Text} {reference : Import} {before after : Session}
    (attempted : Attempted document reference before after) : after.reads = before.reads := by
  obtain ⟨events, grown, silent⟩ := attempted.journal
  rw [Session.reads, grown, Journal.reads, List.filterMap_append, ← Journal.reads, ← Journal.reads,
    silent, List.append_nil]
  rfl

structure Claimed (document : Text) (reference : Import) (before after : Session) : Prop
    extends Attempted document reference before after where
  fresh : reference.path ∉ before.ledger.paths
  entries : after.ledger.entries = before.ledger.entries ++ [reference.record document]

structure Declined (document : Text) (reference : Import) (before after : Session)
    (failure : Failure) : Prop extends Attempted document reference before after where
  ledger : after.ledger = before.ledger
  recorded : ∃ earlier, before.ledger.get? reference.path = some earlier ∧
    failure = .reused (shownPath reference.blockPath reference.path) ⟨document, reference.name⟩
      earlier before.ledger.entries

section Claim

variable {session}
variable {next : Session} {document : Text} {reference : Import} {earlier : Usage}
variable {failure : Failure}

theorem claimed_of_claimImport (passed : session.claimImport document reference = (next, .ok ())) :
    Claimed document reference session next := by
  cases granted : session.ledger.grant reference.path ⟨document, reference.name⟩
      reference.blockPath with
  | error failure =>
    simp [claimImport, claim, Attempt.path, Attempt.usage, granted, Except.map] at passed
  | ok ledger =>
    simp only [claimImport, claim, Attempt.path, Attempt.usage, granted, Except.map,
      Prod.mk.injEq, and_true] at passed
    subst passed
    obtain ⟨fresh, entries⟩ := Ledger.entries_of_grant granted
    exact ⟨⟨rfl, rfl, rfl, _, rfl, rfl⟩, fresh, entries⟩

theorem declined_of_claimImport
    (refused : session.claimImport document reference = (next, .error failure)) :
    Declined document reference session next failure := by
  cases granted : session.ledger.grant reference.path ⟨document, reference.name⟩
      reference.blockPath with
  | ok ledger =>
    simp [claimImport, claim, Attempt.path, Attempt.usage, granted, Except.map] at refused
  | error failure' =>
    simp only [claimImport, claim, Attempt.path, Attempt.usage, granted, Except.map,
      Prod.mk.injEq, Except.error.injEq] at refused
    obtain ⟨rfl, rfl⟩ := refused
    exact ⟨⟨rfl, rfl, rfl, [], by simp, rfl⟩, rfl, Ledger.recorded_of_grant granted⟩

theorem claimImport_of_recorded (document : Text)
    (recorded : session.ledger.get? reference.path = some earlier) :
    ∃ next, session.claimImport document reference =
      (next, .error (.reused (shownPath reference.blockPath reference.path)
        ⟨document, reference.name⟩ earlier session.ledger.entries)) := by
  cases claimed : session.claimImport document reference with
  | mk next result =>
  cases result with
  | ok done =>
    have missing := Ledger.get?_eq_none_iff.2 (claimed_of_claimImport claimed).fresh
    cases missing.symm.trans recorded
  | error failure =>
    obtain ⟨original, found, rfl⟩ := (declined_of_claimImport claimed).recorded
    cases found.symm.trans recorded
    exact ⟨next, rfl⟩

theorem exists_claimImport (document : Text)
    (missing : session.ledger.get? reference.path = none) :
    ∃ next, session.claimImport document reference = (next, .ok ()) := by
  cases claimed : session.claimImport document reference with
  | mk next result =>
  cases result with
  | ok done => exact ⟨next, rfl⟩
  | error failure =>
    obtain ⟨earlier, recorded, -⟩ := (declined_of_claimImport claimed).recorded
    cases missing.symm.trans recorded

end Claim

def blockFrom (reader : Reader) (path : Text) : Except FileFault Block :=
  match session.store.block? path with
  | some block => .ok block
  | none =>
    match session.store.raw? path with
    | some raw => .ok (Block.parse session.settings.templateTag raw)
    | none => (reader.read path).map (Block.parse session.settings.templateTag)

structure Served (reader : Reader) (path : Text) (before after : Session) : Prop
    extends Keeps before after where
  elsewhere : ∀ other, other ≠ path → after.store.entry other = before.store.entry other
  raw : after.store.raw? path = if before.store.knows path then before.store.raw? path
    else (reader.read path).toOption
  reads : after.reads = before.reads ++ if before.store.knows path then [] else [path]

section Serving

variable {session}
variable {reader : Reader} {path written raw : Text} {block : Block} {cause : FileFault}

theorem blockFrom_of_entry {other : Session} (settings : other.settings = session.settings)
    (same : other.store.entry path = session.store.entry path) :
    other.blockFrom reader path = session.blockFrom reader path := by
  obtain ⟨raw, block⟩ := Prod.mk.inj same
  rw [blockFrom, blockFrom, raw, block, settings]

theorem blockFrom_of_unknown (unknown : session.store.knows path = false) :
    session.blockFrom reader path =
      (reader.read path).map (Block.parse session.settings.templateTag) := by
  obtain ⟨raw, block⟩ := (Store.knows_eq_false_iff ..).1 unknown
  simp only [blockFrom, raw, block]

@[simp] theorem reads_keepBlock : (session.keepBlock path raw).1.reads = session.reads := rfl

theorem entry_keepBlock {other : Text} (apart : other ≠ path) :
    (session.keepBlock path raw).1.store.entry other = session.store.entry other := by
  simp [keepBlock, Store.entry, Store.block?_putBlock, apart]

theorem receiveBlock_ok : session.receiveBlock path written (.ok raw) =
    let put := { session with store := session.store.putRaw path raw }
    ((put.keepBlock path raw).1, .ok (put.keepBlock path raw).2) := rfl

theorem receiveBlock_error : session.receiveBlock path written (.error cause) =
    (session.note (.unreadable path cause), .error (.unreadable (shownPath written path) path)) :=
  rfl

theorem entry_receiveBlock {other : Text} (answer : Except FileFault Text) (apart : other ≠ path) :
    (session.receiveBlock path written answer).1.store.entry other = session.store.entry other := by
  cases answer with
  | error cause => rfl
  | ok raw => rw [receiveBlock_ok, entry_keepBlock apart]; simp [Store.entry, Store.raw?_putRaw, apart]

theorem raw?_receiveBlock (answer : Except FileFault Text) :
    (session.receiveBlock path written answer).1.store.raw? path =
      answer.toOption.or (session.store.raw? path) := by
  cases answer with
  | error cause => rfl
  | ok raw => simp [receiveBlock_ok, keepBlock, Store.raw?_putRaw, Except.toOption]

theorem reads_receiveBlock (session : Session) (path written : Text)
    (answer : Except FileFault Text) :
    (session.receiveBlock path written answer).1.reads = session.reads := by
  cases answer <;> simp [receiveBlock_ok, receiveBlock_error]

theorem storedBlock_of_parsed (stored : session.store.block? path = some block) :
    session.storedBlock path = (session, some block) := by
  simp [storedBlock, stored]

theorem storedBlock_of_raw (unparsed : session.store.block? path = none)
    (stored : session.store.raw? path = some raw) :
    session.storedBlock path =
      (((session.note (.stored path)).keepBlock path raw).1,
        some (Block.parse session.settings.templateTag raw)) := by
  simp [storedBlock, storedText, unparsed, stored, keepBlock]

theorem storedBlock_of_unknown (unknown : session.store.knows path = false) :
    session.storedBlock path = (session.note (.requested path), none) := by
  obtain ⟨raw, block⟩ := (Store.knows_eq_false_iff ..).1 unknown
  simp [storedBlock, storedText, raw, block]

theorem getBlock_of_parsed (stored : session.store.block? path = some block) :
    session.getBlock reader path written = (session, .ok block) := by
  rw [getBlock, storedBlock_of_parsed stored]

theorem getBlock_of_raw (unparsed : session.store.block? path = none)
    (stored : session.store.raw? path = some raw) :
    session.getBlock reader path written =
      (((session.note (.stored path)).keepBlock path raw).1,
        .ok (Block.parse session.settings.templateTag raw)) := by
  rw [getBlock, storedBlock_of_raw unparsed stored]

theorem getBlock_of_unknown (unknown : session.store.knows path = false) :
    session.getBlock reader path written =
      (session.note (.requested path)).receiveBlock path written (reader.read path) := by
  rw [getBlock, storedBlock_of_unknown unknown]

-- A block is stored, or its text alone is, or neither of them.
theorem store_cases (session : Session) (path : Text) :
    (∃ block, session.store.block? path = some block) ∨
    (session.store.block? path = none ∧ ∃ raw, session.store.raw? path = some raw) ∨
    session.store.knows path = false := by
  rw [Store.knows_eq_false_iff]
  cases session.store.block? path <;> cases session.store.raw? path <;> simp

theorem getBlock_result (reader : Reader) (session : Session) (path written : Text) :
    (session.getBlock reader path written).2 =
      match session.blockFrom reader path with
      | .ok block => .ok block
      | .error _ => .error (.unreadable (shownPath written path) path) := by
  rcases session.store_cases path with ⟨block, stored⟩ | ⟨unparsed, raw, stored⟩ | unknown
  next => simp [getBlock_of_parsed stored, blockFrom, stored]
  next => simp [getBlock_of_raw unparsed stored, blockFrom, unparsed, stored]
  next =>
    rw [getBlock_of_unknown unknown, blockFrom_of_unknown unknown]
    cases answer : reader.read path <;> simp [receiveBlock, receiveText, keepBlock, Except.map]

theorem served_getBlock (reader : Reader) (session : Session) (path written : Text) :
    Served reader path session (session.getBlock reader path written).1 := by
  rcases session.store_cases path with ⟨block, stored⟩ | ⟨unparsed, raw, stored⟩ | unknown
  next =>
    have known : session.store.knows path = true := by simp [Store.knows, stored]
    rw [getBlock_of_parsed stored]
    exact { Keeps.refl session with
      elsewhere := fun _ _ => rfl
      raw := by simp [known]
      reads := by simp [known] }
  next =>
    have known : session.store.knows path = true := by simp [Store.knows, Store.contains, stored]
    rw [getBlock_of_raw unparsed stored]
    exact
      { ledger := rfl
        settings := rfl
        attempts := rfl
        elsewhere := fun _ apart => entry_keepBlock apart
        raw := by rw [known]; rfl
        reads := by simp [known] }
  next =>
    have missing := ((Store.knows_eq_false_iff ..).1 unknown).1
    rw [getBlock_of_unknown unknown]
    have kept : session.Keeps ((session.note (.requested path)).receiveBlock path written
        (reader.read path)).1 := by
      cases reader.read path <;> exact ⟨rfl, rfl, rfl⟩
    exact { kept with
      elsewhere := fun _ apart => entry_receiveBlock _ apart
      raw := by simp [raw?_receiveBlock, unknown, missing]
      reads := by simp [reads_receiveBlock, unknown] }

end Serving

section Merging

variable (document current : Text) (reference : Import) (block : Block)

theorem merge_snd : (session.merge document current reference block).2 =
    weave document current reference block := by
  unfold merge
  split <;> simp_all

theorem merge_fst : ∃ journal, journal.reads = session.reads ∧
    (session.merge document current reference block).1 = { session with journal } := by
  unfold merge
  split
  next => exact ⟨_, reads_note session (.merged ..) |>.trans (List.append_nil _), rfl⟩
  next => exact ⟨session.journal, rfl, rfl⟩

end Merging

section Frames

variable {session}
variable {reader : Reader} {next : Session} {path written document current : Text}
variable {reference : Import} {block : Block} {failure : Failure}

theorem keeps_getBlock {result : Except Failure Block}
    (taken : session.getBlock reader path written = (next, result)) : session.Keeps next := by
  have served := served_getBlock reader session path written
  rw [taken] at served
  exact served.toKeeps

theorem keeps_storedBlock {found : Option Block}
    (taken : session.storedBlock path = (next, found)) : session.Keeps next := by
  rcases session.store_cases path with ⟨block, stored⟩ | ⟨unparsed, raw, stored⟩ | unknown
  next => rw [storedBlock_of_parsed stored] at taken; cases taken; exact .refl session
  next => rw [storedBlock_of_raw unparsed stored] at taken; cases taken; exact ⟨rfl, rfl, rfl⟩
  next => rw [storedBlock_of_unknown unknown] at taken; cases taken; exact ⟨rfl, rfl, rfl⟩

theorem keeps_receiveBlock {answer : Except FileFault Text} {result : Except Failure Block}
    (taken : session.receiveBlock path written answer = (next, result)) : session.Keeps next := by
  cases answer with
  | ok raw => rw [receiveBlock_ok] at taken; cases taken; exact ⟨rfl, rfl, rfl⟩
  | error cause => rw [receiveBlock_error] at taken; cases taken; exact ⟨rfl, rfl, rfl⟩

theorem keeps_load (reader : Reader) (session : Session) (path written : Text) :
    session.Keeps (session.load reader path written).1 := by
  unfold load storedText
  cases stored : session.store.raw? path with
  | some raw => exact ⟨rfl, rfl, rfl⟩
  | none => cases answer : reader.read path <;> exact ⟨rfl, rfl, rfl⟩

theorem keeps_merge {result : Except Failure Text}
    (merged : session.merge document current reference block = (next, result)) :
    session.Keeps next := by
  obtain ⟨journal, -, same⟩ := merge_fst session document current reference block
  rw [merged] at same
  cases same
  exact ⟨rfl, rfl, rfl⟩

theorem isReuse_of_receiveBlock {answer : Except FileFault Text}
    (failed : session.receiveBlock path written answer = (next, .error failure)) :
    failure.isReuse = false := by
  cases answer with
  | ok raw => rw [receiveBlock_ok] at failed; cases failed
  | error cause => rw [receiveBlock_error] at failed; cases failed; rfl

theorem isReuse_of_merge
    (failed : session.merge document current reference block = (next, .error failure)) :
    failure.isReuse = false := by
  have woven := merge_snd session document current reference block
  rw [failed] at woven
  unfold weave at woven
  split at woven
  next => cases woven
  next => cases woven; rfl

end Frames

theorem transform_eq (reader : Reader) {document text : Text} {references : List Import}
    (scanned : Import.scan session.settings.blockSuffix document text = references)
    (imports : references ≠ []) :
    session.transform reader document text =
      let outcome := session.applyImports reader document text references
      (outcome.1, outcome.2.map some) := by
  unfold transform
  split
  next none => exact absurd (scanned.symm.trans none) imports
  next reference others found =>
    obtain rfl : references = reference :: others := scanned.symm.trans found
    cases session.applyImports reader document text (reference :: others) with
    | mk after result => cases result <;> rfl

theorem transform_of_nil (reader : Reader) {document text : Text}
    (scanned : Import.scan session.settings.blockSuffix document text = []) :
    session.transform reader document text = (session.note (.untouched document), .ok none) := by
  unfold transform
  rw [scanned]

def proceed (reader : Reader) (document : Text) (session : Session) (current : Text)
    (reference : Import) (references : List Import) (block : Block) : Session × Job :=
  match session.merge document current reference block with
  | (session, .error failure) => (session, .finished (.error failure))
  | (session, .ok merged) => session.advance reader document merged references

def serve (reader : Reader) (document : Text) (session : Session) (current : Text)
    (reference : Import) (references : List Import) : Session × Job :=
  match session.storedBlock reference.path with
  | (session, some block) => session.proceed reader document current reference references block
  | (session, none) =>
    match reader.pauses reference.path with
    | pauses + 1 => (session, .waiting pauses current reference references)
    | 0 => session.resume reader document current reference references

theorem resume_eq (reader : Reader) (document : Text) (session : Session) (current : Text)
    (reference : Import) (references : List Import) :
    session.resume reader document current reference references =
      match session.receiveBlock reference.path reference.blockPath (reader.read reference.path) with
      | (session, .error failure) => (session, .finished (.error failure))
      | (session, .ok block) => session.proceed reader document current reference references block :=
  rfl

theorem advance_cons (reader : Reader) (document : Text) (session : Session) (current : Text)
    (reference : Import) (references : List Import) :
    session.advance reader document current (reference :: references) =
      match session.claimImport document reference with
      | (session, .error failure) => (session, .finished (.error failure))
      | (session, .ok ()) => session.serve reader document current reference references :=
  rfl

theorem advance_still (reader : Reader) (document : Text) (session : Session) (current : Text)
    (references : List Import) :
    session.advance reader.still document current references =
      let outcome := session.applyImports reader document current references
      (outcome.1, .finished (outcome.2.map some)) := by
  induction references generalizing session current with
  | nil => rfl
  | cons reference references ih =>
    rw [advance_cons, applyImports]
    cases session.claimImport document reference with
    | mk claimed result =>
    cases result with
    | error failure => rfl
    | ok done =>
      -- What follows once the block is there is the same on both sides.
      have woven (served : Session) (block : Block) :
          served.proceed reader.still document current reference references block =
            let outcome : Session × Except Failure Text :=
              match served.merge document current reference block with
              | (session, .error failure) => (session, .error failure)
              | (session, .ok merged) => session.applyImports reader document merged references
            (outcome.1, .finished (outcome.2.map some)) := by
        unfold proceed
        cases served.merge document current reference block with
        | mk after result =>
          cases result with
          | error failure => rfl
          | ok merged => exact ih after merged
      dsimp only
      rw [serve, getBlock]
      cases claimed.storedBlock reference.path with
      | mk served found =>
        cases found with
        | some block => exact woven served block
        | none =>
          dsimp only [Reader.still]
          rw [resume_eq]
          dsimp only
          cases served.receiveBlock reference.path reference.blockPath
              (reader.read reference.path) with
          | mk answered result =>
            cases result with
            | error failure => rfl
            | ok block => exact woven answered block

theorem turn_still_ready (reader : Reader) (session : Session) (document text : Text) :
    session.turn reader.still document
        (.ready text (Import.scan session.settings.blockSuffix document text)) =
      ((session.transform reader document text).1,
        .finished (session.transform reader document text).2) := by
  cases scanned : Import.scan session.settings.blockSuffix document text with
  | nil => rw [transform_of_nil session reader scanned]; rfl
  | cons reference references =>
    rw [transform_eq session reader scanned (by simp)]
    exact advance_still reader document session text (reference :: references)

end Session
end Inlay
