import Inlay.Proofs.Session.Stocking

set_option autoImplicit false

namespace Inlay

open Text Markup

-- Whether a step leaves the stored texts in the store.
def Step.keepsStore : Step → Bool
  | .clearStore | .reset => false
  | _ => true

theorem lookup_filterMap_text (text? : Text → Option Text) (paths : List Text) (path : Text) :
    (paths.filterMap fun other => (text? other).map (other, ·)).lookup path =
      if path ∈ paths then text? path else none := by
  induction paths with
  | nil => simp
  | cons other paths ih =>
    by_cases same : path = other
    next =>
      subst same
      cases found : text? path with
      | none => simp [found, ih]
      | some text => simp [found]
    next =>
      have apart : (path == other) = false := by simpa using same
      cases found : text? other <;> simp [List.lookup_cons, found, ih, same, apart]

namespace Supply

theorem toOption_read (supply : Supply) (path : Text) :
    (supply.reader.read path).toOption = supply.text? path := by
  cases found : supply.text? path <;> simp [reader, found, Except.toOption]

theorem read_of_text? {supply : Supply} {path text : Text}
    (found : supply.text? path = some text) : supply.reader.read path = .ok text := by
  simp [reader, found]

theorem read_of_none {supply : Supply} {path : Text} (missing : supply.text? path = none) :
    supply.reader.read path = .error (.missing path) := by
  simp [reader, missing]

end Supply

-- Without a text there is no block.
theorem Session.Coherent.entry_of_missing {session : Session} {path : Text}
    (coherent : session.Coherent) (missing : session.store.raw? path = none) :
    session.store.entry path = (none, none) := by
  cases parsed : session.store.block? path with
  | none => rw [Store.entry, missing, parsed]
  | some block =>
    obtain ⟨raw, known, -⟩ := coherent path block parsed
    cases missing.symm.trans known

namespace Run

open Session

variable {run : Run} {step : Step} {steps : List Step} {path written text raw : Text}

def reading (run : Run) (step : Step) : List (Text × Text) :=
  (run.readsSince (run.step step).1).filterMap fun path =>
    (run.supply.text? path).map (path, ·)

def readings (run : Run) (known : List (Text × Text)) : List Step → List (Text × Text)
  | [] => known
  | step :: steps =>
    (run.step step).1.readings (if step.keepsStore then known ++ run.reading step else []) steps

theorem supplied_step (run : Run) (kept : step.keepsStore = true) :
    Supplied run.supply.reader [] run.session (run.step step).1.session [] := by
  cases step with
  | transform document text => exact supplied_transform ..
  | transformAccepted document text => exact supplied_transformAccepted ..
  | transformAll documents => exact supplied_transformAll ..
  | load path written => exact supplied_load ..
  | getBlock path written => exact supplied_getBlock ..
  | supply path text? => exact .of_stocked (.refl _ _) []
  | clearLedger =>
    have stocked : Stocked run.supply.reader [] [] run.session run.session.clearLedger :=
      .of_store rfl rfl ⟨[], by simp [clearLedger], rfl⟩
    exact .of_stocked stocked []
  | clearStore => cases kept
  | reset => cases kept

theorem readsSince_eq {next : Run} {events : Journal}
    (grown : next.session.journal = run.session.journal ++ events) :
    run.readsSince next = Journal.reads events := by
  rw [readsSince, grown, List.drop_left]

-- A step answers the reads that it asks for, and no others.
theorem exists_stocked (run : Run) (kept : step.keepsStore = true) :
    ∃ answered, Stocked run.supply.reader (run.readsSince (run.step step).1) answered run.session
        (run.step step).1.session ∧
      ∀ path, path ∈ answered ↔ path ∈ run.readsSince (run.step step).1 := by
  obtain ⟨asked, answered, stocked, balance⟩ := run.supplied_step kept
  obtain ⟨events, grown, reads⟩ := stocked.journal
  rw [readsSince_eq grown, reads]
  rw [List.nil_append, List.append_nil] at balance
  exact ⟨answered, stocked, fun _ => balance.symm.mem_iff⟩

theorem unknown_of_read (run : Run) (kept : step.keepsStore = true)
    (asked : path ∈ run.readsSince (run.step step).1) : run.session.store.raw? path = none := by
  obtain ⟨answered, stocked, -⟩ := run.exists_stocked kept
  exact stocked.unknown path asked

theorem raw?_step (run : Run) (kept : step.keepsStore = true) (path : Text) :
    (run.step step).1.session.store.raw? path =
      (run.session.store.raw? path).or ((run.reading step).lookup path) := by
  obtain ⟨answered, stocked, same⟩ := run.exists_stocked kept
  rw [stocked.raw, reading, lookup_filterMap_text, run.supply.toOption_read]
  by_cases asked : path ∈ run.readsSince (run.step step).1
  next => simp [same, asked, stocked.unknown path asked]
  next => simp [same, asked]

theorem settings_step (run : Run) (step : Step) :
    (run.step step).1.session.settings = run.session.settings := by
  cases kept : step.keepsStore with
  | true =>
    obtain ⟨_, stocked, -⟩ := run.exists_stocked kept
    exact stocked.settings
  | false =>
    cases step with
    | clearStore => rfl
    | reset => rfl
    | _ => cases kept

theorem entry_of_cleared (run : Run) (cleared : step.keepsStore = false) (path : Text) :
    (run.step step).1.session.store.entry path = (none, none) := by
  cases step with
  | clearStore => rfl
  | reset => rfl
  | _ => cases cleared

theorem coherent_step (coherent : run.session.Coherent) (step : Step) :
    (run.step step).1.session.Coherent := by
  cases kept : step.keepsStore with
  | true =>
    obtain ⟨_, stocked, -⟩ := run.exists_stocked kept
    exact stocked.coherent coherent
  | false =>
    intro path block found
    have empty := (Prod.mk.inj (run.entry_of_cleared kept path)).2
    cases empty.symm.trans found

structure Stores (run : Run) (known : List (Text × Text)) : Prop where
  coherent : run.session.Coherent
  raw : ∀ path, run.session.store.raw? path = known.lookup path

theorem Stores.of_step {known : List (Text × Text)} (stores : run.Stores known) (step : Step) :
    (run.step step).1.Stores (if step.keepsStore then known ++ run.reading step else []) where
  coherent := coherent_step stores.coherent step
  raw := by
    intro path
    cases kept : step.keepsStore with
    | true => rw [run.raw?_step kept, stores.raw, if_pos rfl, List.lookup_append]
    | false => exact (Prod.mk.inj (run.entry_of_cleared kept path)).1

theorem Stores.after {known : List (Text × Text)} (stores : run.Stores known) (steps : List Step) :
    (run.after steps).Stores (run.readings known steps) := by
  induction steps generalizing run known with
  | nil => exact stores
  | cons step steps ih => exact ih (stores.of_step step)

theorem settings_after (run : Run) (steps : List Step) :
    (run.after steps).session.settings = run.session.settings := by
  induction steps generalizing run with
  | nil => rfl
  | cons step steps ih => exact (ih (run.step step).1).trans (run.settings_step step)

theorem raw?_after (kept : ∀ step ∈ steps, step.keepsStore = true)
    (known : run.session.store.raw? path = some raw) :
    (run.after steps).session.store.raw? path = some raw := by
  induction steps generalizing run with
  | nil => exact known
  | cons step steps ih =>
    obtain ⟨here, later⟩ := List.forall_mem_cons.1 kept
    have stored := run.raw?_step here path
    rw [known, Option.some_or] at stored
    exact ih later stored

structure ReadsAnew (run : Run) (path written : Text) : Prop where
  load_reads : run.readsSince (run.step (.load path written)).1 = [path]
  load_fails : run.supply.text? path = none →
    (run.step (.load path written)).1.session.store = run.session.store ∧
    (run.step (.load path written)).2 = .raw (.error (.unreadable (shownPath written path) path))
  load_succeeds : ∀ text, run.supply.text? path = some text →
    (run.step (.load path written)).1.session.store.entry path = (some text, none) ∧
    (run.step (.load path written)).2 = .raw (.ok text)
  block_reads : run.readsSince (run.step (.getBlock path written)).1 = [path]
  block_fails : run.supply.text? path = none →
    (run.step (.getBlock path written)).1.session.store = run.session.store ∧
    (run.step (.getBlock path written)).2 =
      .block (.error (.unreadable (shownPath written path) path))
  block_succeeds : ∀ text, run.supply.text? path = some text →
    let block := Block.parse run.session.settings.templateTag text
    (run.step (.getBlock path written)).1.session.store.entry path = (some text, some block) ∧
    (run.step (.getBlock path written)).2 = .block (.ok block)

theorem load_of_unknown (unknown : run.session.store.knows path = false) :
    run.step (.load path written) = run.keep .raw
      ((run.session.note (.requested path)).receiveText path written
        (run.supply.reader.read path)) := by
  rw [Run.step, load_of_missing ((Store.knows_eq_false_iff ..).1 unknown).1]

theorem getBlock_of_unknown (unknown : run.session.store.knows path = false) :
    run.step (.getBlock path written) = run.keep .block
      ((run.session.note (.requested path)).receiveBlock path written
        (run.supply.reader.read path)) := by
  rw [Run.step, Session.getBlock_of_unknown unknown]

-- The path is asked for first, and nothing that its answer notes asks for another.
theorem readsSince_keep {A : Type} {answer : A → Answer} {outcome : Session × A}
    {answered : List Text}
    (stocked : Stocked run.supply.reader [] answered (run.session.note (.requested path)) outcome.1) :
    run.readsSince (run.keep answer outcome).1 = [path] := by
  obtain ⟨events, grown, reads⟩ := stocked.journal
  have whole : (run.keep answer outcome).1.session.journal =
      run.session.journal ++ (.requested path :: events) := by
    rw [keep, grown]
    simp [note]
  rw [readsSince_eq whole]
  exact congrArg (path :: ·) reads

theorem readsAnew (unknown : run.session.store.knows path = false) (written : Text) :
    run.ReadsAnew path written where
  load_reads := by
    rw [load_of_unknown unknown]
    exact readsSince_keep (stocked_receiveText written ((Store.knows_eq_false_iff ..).1 unknown).1)
  load_fails := by
    intro absent
    rw [load_of_unknown unknown, Supply.read_of_none absent]
    exact ⟨rfl, rfl⟩
  load_succeeds := by
    intro text found
    have unparsed := ((Store.knows_eq_false_iff ..).1 unknown).2
    rw [load_of_unknown unknown, Supply.read_of_text? found]
    exact ⟨by simp [keep, receiveText, Store.entry, Store.raw?_putRaw, unparsed], rfl⟩
  block_reads := by
    rw [getBlock_of_unknown unknown]
    exact readsSince_keep (stocked_receiveBlock ..)
  block_fails := by
    intro absent
    rw [getBlock_of_unknown unknown, Supply.read_of_none absent]
    exact ⟨rfl, rfl⟩
  block_succeeds := by
    intro text found
    rw [getBlock_of_unknown unknown, Supply.read_of_text? found, receiveBlock_ok]
    exact ⟨by simp [keep, keepBlock, Store.entry, Store.raw?_putRaw, Store.block?_putBlock], rfl⟩

theorem store_resume_of_error {reader : Reader} {session : Session} {reference : Import}
    {cause : FileFault} (failed : reader.read reference.path = .error cause)
    (document current : Text) (references : List Import) :
    (session.resume reader document current reference references).1.store = session.store := by
  rw [resume_eq, failed, receiveBlock_error]
  rfl

/-- In every run of a fresh session, a path with a block has a text, and the block is what that text
is parsed to: the turns of a batch keep this, one by one, whatever jobs wait. The text of a path is
the one that was read first since the store was cleared, and stays until it is cleared again. A read
that fails leaves the store as it was, at a step's end and wherever among other jobs its answer
comes, and the path is read again when it is asked for. -/
theorem store_coherent (settings : Settings) (supply : Supply) (steps : List Step) :
    let start : Run := ⟨{ settings := settings }, supply⟩
    let run := start.after steps
    (∀ path block, run.session.store.block? path = some block →
      ∃ raw, run.session.store.raw? path = some raw ∧
        block = Block.parse settings.templateTag raw) ∧
    (∀ (session : Session) reader document job, session.Coherent →
      (session.turn reader document job).1.Coherent) ∧
    (∀ path, run.session.store.raw? path = (start.readings [] steps).lookup path) ∧
    (∀ later, (∀ step ∈ later, step.keepsStore = true) → ∀ path raw,
      run.session.store.raw? path = some raw →
      (run.after later).session.store.raw? path = some raw) ∧
    (∀ step, step.keepsStore = true → ∀ path ∈ run.readsSince (run.step step).1,
      run.session.store.entry path = (none, none) ∧
      (run.supply.text? path = none →
        (run.step step).1.session.store.entry path = (none, none))) ∧
    (∀ (session : Session) document current reference references,
      run.supply.text? reference.path = none →
      (session.resume run.supply.reader document current reference references).1.store =
        session.store) ∧
    ∀ path written, run.session.store.contains path = false → run.ReadsAnew path written := by
  intro start run
  have fresh : start.Stores [] := ⟨nofun, fun _ => rfl⟩
  have stores : run.Stores (start.readings [] steps) := fresh.after steps
  have same : run.session.settings = settings := start.settings_after steps
  refine ⟨?_, ?_, stores.raw, fun _ kept _ _ => raw?_after kept, ?_, ?_, ?_⟩
  next =>
    intro path block found
    rw [← same]
    exact stores.coherent path block found
  next =>
    intro session reader document job coherent
    obtain ⟨_, _, stocked, -⟩ := supplied_turn reader document session job
    exact stocked.coherent coherent
  next =>
    intro step kept path asked
    have unknown := run.unknown_of_read kept asked
    refine ⟨stores.coherent.entry_of_missing unknown, fun absent => ?_⟩
    apply (coherent_step stores.coherent step).entry_of_missing
    rw [run.raw?_step kept, unknown, reading, lookup_filterMap_text, absent]
    simp
  next =>
    intro session document current reference references absent
    exact store_resume_of_error (Supply.read_of_none absent) document current references
  next =>
    intro path written missing
    have missing' : run.session.store.raw? path = none := by simpa [Store.contains] using missing
    have entry := Prod.mk.inj (stores.coherent.entry_of_missing missing')
    exact readsAnew ((Store.knows_eq_false_iff ..).2 entry) written

end Run
end Inlay
