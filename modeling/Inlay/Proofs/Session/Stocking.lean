import Inlay.Proofs.Session.Alone

set_option autoImplicit false

namespace Inlay

open Text Markup

namespace Session

def Coherent (session : Session) : Prop :=
  ∀ path block, session.store.block? path = some block →
    ∃ raw, session.store.raw? path = some raw ∧
      block = Block.parse session.settings.templateTag raw

structure Stocked (reader : Reader) (asked answered : List Text) (before after : Session) :
    Prop where
  settings : after.settings = before.settings
  journal : ∃ events, after.journal = before.journal ++ events ∧ Journal.reads events = asked
  unknown : ∀ path ∈ asked, before.store.raw? path = none
  raw : ∀ path, after.store.raw? path =
    (if path ∈ answered then (reader.read path).toOption else none).or (before.store.raw? path)
  parsed : ∀ path, after.store.raw? path = none →
    after.store.block? path = before.store.block? path
  coherent : before.Coherent → after.Coherent

variable {reader : Reader} {session before middle after next : Session}
variable {asked answered more others : List Text} {path written raw : Text}

namespace Stocked

theorem refl (reader : Reader) (session : Session) : Stocked reader [] [] session session where
  settings := rfl
  journal := ⟨[], by simp, rfl⟩
  unknown := by simp
  raw := by simp
  parsed := fun _ _ => rfl
  coherent := id

theorem trans (early : Stocked reader asked answered before middle)
    (late : Stocked reader more others middle after) :
    Stocked reader (asked ++ more) (answered ++ others) before after where
  settings := late.settings.trans early.settings
  journal := by
    obtain ⟨first, grown, reads⟩ := early.journal
    obtain ⟨second, further, later⟩ := late.journal
    refine ⟨first ++ second, by rw [further, grown, List.append_assoc], ?_⟩
    rw [Journal.reads, List.filterMap_append, ← Journal.reads, ← Journal.reads, reads, later]
  unknown := by
    intro path member
    rcases List.mem_append.1 member with here | there
    next => exact early.unknown path here
    next =>
      -- What the store does not know later it did not know before.
      have missing := late.unknown path there
      rw [early.raw, Option.or_eq_none_iff] at missing
      exact missing.2
  raw := by
    intro path
    rw [late.raw, early.raw]
    by_cases first : path ∈ answered <;> by_cases second : path ∈ others <;>
      simp [first, second, ← Option.or_assoc]
  parsed := by
    intro path missing
    have missing' := missing
    rw [late.raw, Option.or_eq_none_iff] at missing'
    rw [late.parsed path missing, early.parsed path missing'.2]
  coherent := late.coherent ∘ early.coherent

-- What is read does not hang on how long an answer takes.
theorem of_still (stocked : Stocked reader.still asked answered before after) :
    Stocked reader asked answered before after where
  settings := stocked.settings
  journal := stocked.journal
  unknown := stocked.unknown
  raw := stocked.raw
  parsed := stocked.parsed
  coherent := stocked.coherent

-- Nothing but the ledger and the journal has changed, and no path was asked for.
theorem of_store (settings : after.settings = before.settings) (store : after.store = before.store)
    (journal : ∃ events, after.journal = before.journal ++ events ∧ Journal.reads events = []) :
    Stocked reader [] [] before after where
  settings := settings
  journal := journal
  unknown := by simp
  raw := by simp [store]
  parsed := by simp [store]
  coherent := by simp [Coherent, store, settings]

theorem of_note {event : Event} (quiet : event.requestedPath? = none) :
    Stocked reader [] [] session (session.note event) :=
  of_store rfl rfl ⟨[event], rfl, by simp [Journal.reads, quiet]⟩

theorem of_request (missing : session.store.raw? path = none) :
    Stocked reader [path] [] session (session.note (.requested path)) where
  settings := rfl
  journal := ⟨[.requested path], rfl, rfl⟩
  unknown := by simp [missing]
  raw := by simp
  parsed := fun _ _ => rfl
  coherent := id

theorem of_attempted {document : Text} {reference : Import}
    (attempted : Attempted document reference session next) : Stocked reader [] [] session next :=
  of_store attempted.settings attempted.store attempted.journal

theorem of_merge (document current : Text) (reference : Import) (block : Block) :
    Stocked reader [] [] session (session.merge document current reference block).1 := by
  unfold merge
  split
  next => exact of_note rfl
  next => exact refl reader session

end Stocked

section Store

theorem stocked_keepBlock (known : session.store.raw? path = some raw) :
    Stocked reader [] [] session (session.keepBlock path raw).1 where
  settings := rfl
  journal := ⟨[], by simp [keepBlock], rfl⟩
  unknown := by simp
  raw := by simp [keepBlock]
  parsed := by
    intro other missing
    have apart : other ≠ path := by
      rintro rfl
      simp [keepBlock, known] at missing
    simp [keepBlock, Store.block?_putBlock, apart]
  coherent := by
    intro coherent other block found
    simp only [keepBlock, Store.block?_putBlock, Store.raw?_putBlock] at found ⊢
    split at found
    next same => exact ⟨raw, same ▸ known, (Option.some.inj found).symm⟩
    next => exact coherent other block found

-- The text of a path comes alone. A block that is there already would be that of another text.
theorem stocked_receiveText (written : Text) (missing : session.store.raw? path = none) :
    Stocked reader [] [path] session
      (session.receiveText path written (reader.read path)).1 := by
  cases answer : reader.read path with
  | error cause =>
    exact
      { settings := rfl
        journal := ⟨[.unreadable path cause], rfl, rfl⟩
        unknown := by simp
        raw := by
          intro other
          by_cases same : other = path <;> simp [receiveText, same, answer, Except.toOption]
        parsed := fun _ _ => rfl
        coherent := id }
  | ok raw =>
    exact
      { settings := rfl
        journal := ⟨[], by simp [receiveText], rfl⟩
        unknown := by simp
        raw := by
          intro other
          by_cases same : other = path <;>
            simp [receiveText, Store.raw?_putRaw, same, answer, Except.toOption]
        parsed := fun _ _ => rfl
        coherent := by
          intro coherent other block found
          obtain ⟨text, known, same⟩ := coherent other block found
          have apart : other ≠ path := by
            rintro rfl
            cases missing.symm.trans known
          exact ⟨text, by simpa [receiveText, Store.raw?_putRaw, apart] using known, same⟩ }

-- Here the block comes with its text, so the two agree whatever was there before.
theorem stocked_receiveBlock (reader : Reader) (session : Session) (path written : Text) :
    Stocked reader [] [path] session
      (session.receiveBlock path written (reader.read path)).1 := by
  cases answer : reader.read path with
  | error cause =>
    exact
      { settings := rfl
        journal := ⟨[.unreadable path cause], rfl, rfl⟩
        unknown := by simp
        raw := by
          intro other
          by_cases same : other = path <;> simp [receiveBlock_error, same, answer, Except.toOption]
        parsed := fun _ _ => rfl
        coherent := id }
  | ok raw =>
    have put : ({ session with store := session.store.putRaw path raw } : Session).store.raw? path =
        some raw := by simp [Store.raw?_putRaw]
    have kept : Stocked reader [] [] _ _ := stocked_keepBlock put
    rw [receiveBlock_ok]
    exact
      { settings := rfl
        journal := ⟨[], by simp [keepBlock], rfl⟩
        unknown := by simp
        raw := by
          intro other
          by_cases same : other = path <;>
            simp [keepBlock, Store.raw?_putRaw, same, answer, Except.toOption]
        parsed := fun other missing => kept.parsed other missing
        coherent := by
          intro coherent other block found
          simp only [keepBlock, Store.block?_putBlock, Store.raw?_putBlock, Store.raw?_putRaw,
            Store.block?_putRaw] at found ⊢
          split at found
          next same => exact ⟨raw, by simp [same], (Option.some.inj found).symm⟩
          next apart => simpa [apart] using coherent other block found }

-- A path whose block cannot be had from the store is asked for.
theorem stocked_storedBlock (reader : Reader) (session : Session) (path : Text) :
    Stocked reader (if (session.storedBlock path).2.isSome then [] else [path]) [] session
      (session.storedBlock path).1 := by
  rcases session.store_cases path with ⟨block, stored⟩ | ⟨unparsed, raw, stored⟩ | unknown
  next =>
    rw [storedBlock_of_parsed stored]
    exact .refl reader session
  next =>
    have noted : (session.note (.stored path)).store.raw? path = some raw := stored
    rw [storedBlock_of_raw unparsed stored]
    exact (Stocked.of_note rfl).trans (stocked_keepBlock noted)
  next =>
    rw [storedBlock_of_unknown unknown]
    exact .of_request ((Store.knows_eq_false_iff ..).1 unknown).1

end Store

-- The reads that are waited for at first or asked for are answered or still waited for.
def Supplied (reader : Reader) (waiting : List Text) (before after : Session)
    (still : List Text) : Prop :=
  ∃ asked answered, Stocked reader asked answered before after ∧
    (waiting ++ asked).Perm (answered ++ still)

end Session

-- The path that a job waits for, if there is one.
def Job.awaited (job : Job) : List Text :=
  job.awaited?.toList

def awaitedBy (tasks : List Task) : List Text :=
  tasks.flatMap (·.job.awaited)

namespace Session

variable {reader : Reader} {session before middle after next : Session}
variable {waiting still later others : List Text} {document current text : Text}
variable {reference : Import} {references : List Import} {block : Block} {path written raw : Text}

namespace Supplied

theorem of_stocked (stocked : Stocked reader [] [] before after) (waiting : List Text) :
    Supplied reader waiting before after waiting :=
  ⟨[], [], stocked, by simp⟩

theorem trans (early : Supplied reader waiting before middle still)
    (late : Supplied reader still middle after later) :
    Supplied reader waiting before after later := by
  obtain ⟨asked, answered, first, balance⟩ := early
  obtain ⟨more, further, second, rest⟩ := late
  refine ⟨asked ++ more, answered ++ further, first.trans second, ?_⟩
  have here := balance.append_right more
  have there := rest.append_left answered
  rw [List.append_assoc, List.append_assoc] at here
  rw [List.append_assoc]
  exact here.trans there

-- Reads that others wait for are waited for all along.
theorem beside (supplied : Supplied reader waiting before after still) (first last : List Text) :
    Supplied reader (first ++ waiting ++ last) before after (first ++ still ++ last) := by
  obtain ⟨asked, answered, stocked, balance⟩ := supplied
  refine ⟨asked, answered, stocked, ?_⟩
  rw [List.perm_iff_count] at balance ⊢
  intro path
  have same := balance path
  simp only [List.count_append] at same ⊢
  omega

end Supplied

variable (reader document) in
-- Imports that are applied leave behind only the read that their job waits for.
def SuppliesFrom (references : List Import) : Prop :=
  ∀ session current, Supplied reader [] session
    (session.advance reader document current references).1
    (session.advance reader document current references).2.awaited

theorem SuppliesFrom.proceed (onward : SuppliesFrom reader document references) :
    Supplied reader [] session
      (session.proceed reader document current reference references block).1
      (session.proceed reader document current reference references block).2.awaited := by
  have merging : Supplied reader [] session
      (session.merge document current reference block).1 [] :=
    .of_stocked (.of_merge document current reference block) []
  unfold Session.proceed
  cases merged : session.merge document current reference block with
  | mk next result =>
    rw [merged] at merging
    cases result with
    | error failure => exact merging
    | ok text => exact merging.trans (onward next text)

theorem SuppliesFrom.resume (onward : SuppliesFrom reader document references) :
    Supplied reader [reference.path] session
      (session.resume reader document current reference references).1
      (session.resume reader document current reference references).2.awaited := by
  have answered : Supplied reader [reference.path] session
      (session.receiveBlock reference.path reference.blockPath (reader.read reference.path)).1 [] :=
    ⟨[], [reference.path], stocked_receiveBlock .., .refl _⟩
  rw [resume_eq]
  cases received : session.receiveBlock reference.path reference.blockPath
      (reader.read reference.path) with
  | mk next result =>
    rw [received] at answered
    cases result with
    | error failure => exact answered
    | ok block => exact answered.trans onward.proceed

theorem SuppliesFrom.serve (onward : SuppliesFrom reader document references) :
    Supplied reader [] session
      (session.serve reader document current reference references).1
      (session.serve reader document current reference references).2.awaited := by
  have stocked := stocked_storedBlock reader session reference.path
  unfold Session.serve
  cases taken : session.storedBlock reference.path with
  | mk next found =>
    rw [taken] at stocked
    cases found with
    | some block => exact (Supplied.of_stocked stocked []).trans onward.proceed
    | none =>
      have asked : Supplied reader [] session next [reference.path] :=
        ⟨[reference.path], [], stocked, .refl _⟩
      dsimp only
      -- The answer comes at once, or the job waits for it.
      cases reader.pauses reference.path with
      | zero => exact asked.trans onward.resume
      | succ pauses => exact asked

theorem suppliesFrom (reader : Reader) (document : Text) (references : List Import) :
    SuppliesFrom reader document references := by
  induction references with
  | nil => exact fun session _ => .of_stocked (.refl reader session) []
  | cons reference references ih =>
    intro session current
    rw [advance_cons]
    cases claimed : session.claimImport document reference with
    | mk next result =>
    cases result with
    | error failure =>
      exact .of_stocked (.of_attempted (declined_of_claimImport claimed).toAttempted) []
    | ok done =>
      have attempted := (claimed_of_claimImport claimed).toAttempted
      exact (Supplied.of_stocked (.of_attempted attempted) []).trans ih.serve

theorem supplied_turn (reader : Reader) (document : Text) (session : Session) (job : Job) :
    Supplied reader job.awaited session (session.turn reader document job).1
      (session.turn reader document job).2.awaited := by
  match job with
  | .ready _ [] => exact .of_stocked (.of_note rfl) []
  | .ready text (reference :: references) =>
    exact suppliesFrom reader document (reference :: references) session text
  | .waiting (pauses + 1) _ reference _ => exact .of_stocked (.refl reader session) [reference.path]
  | .waiting 0 _ _ references => exact (suppliesFrom reader document references).resume
  | .finished _ => exact .of_stocked (.refl reader session) []

theorem supplied_round (reader : Reader) (session : Session) (tasks : List Task) :
    Supplied reader (awaitedBy tasks) session (session.round reader tasks).1
      (awaitedBy (session.round reader tasks).2) := by
  induction tasks generalizing session with
  | nil => exact .of_stocked (.refl reader session) []
  | cons task tasks ih =>
    have here := supplied_turn reader task.document session task.job
    have there := ih (session.turn reader task.document task.job).1
    have first := here.beside [] (awaitedBy tasks)
    have second := there.beside (session.turn reader task.document task.job).2.awaited []
    rw [List.append_nil, List.append_nil] at second
    exact first.trans second

theorem supplied_settle (reader : Reader) (session : Session) (tasks : List Task) :
    Supplied reader (awaitedBy tasks) session (session.settle reader tasks).1
      (awaitedBy (session.settle reader tasks).2) := by
  fun_induction settle reader session tasks with
  | case1 session tasks ended => exact .of_stocked (.refl reader session) _
  | case2 session tasks running ih => exact (supplied_round reader session tasks).trans ih

theorem awaitedBy_of_finished {tasks : List Task}
    (finished : ∀ task ∈ tasks, ∃ result, task.job = .finished result) : awaitedBy tasks = [] := by
  rw [awaitedBy, List.flatMap_eq_nil_iff]
  intro task member
  obtain ⟨result, same⟩ := finished task member
  rw [same]
  rfl

theorem awaitedBy_ofText (suffix : Text) (documents : List (Text × Text)) :
    awaitedBy (documents.map fun (document, text) => Task.ofText suffix document text) = [] := by
  rw [awaitedBy, List.flatMap_eq_nil_iff]
  intro task member
  obtain ⟨⟨document, text⟩, -, rfl⟩ := List.mem_map.1 member
  rfl

theorem supplied_transformAll (reader : Reader) (session : Session)
    (documents : List (Text × Text)) :
    Supplied reader [] session (session.transformAll reader documents).1 [] := by
  have settled := supplied_settle reader session (documents.map fun (document, text) =>
    Task.ofText session.settings.blockSuffix document text)
  rw [awaitedBy_ofText, awaitedBy_of_finished (exists_result (turnsLeft_settle ..))] at settled
  exact settled

theorem supplied_transform (reader : Reader) (session : Session) (document text : Text) :
    Supplied reader [] session (session.transform reader document text).1 [] := by
  by_cases imports : Import.scan session.settings.blockSuffix document text = []
  next =>
    rw [transform_of_nil session reader imports]
    exact .of_stocked (.of_note rfl) []
  next =>
    rw [transform_eq session reader rfl imports]
    -- Alone a transform goes as a job whose reads are answered at once.
    obtain ⟨asked, answered, stocked, balance⟩ := suppliesFrom reader.still document
      (Import.scan session.settings.blockSuffix document text) session text
    rw [advance_still] at stocked balance
    exact ⟨asked, answered, stocked.of_still, balance⟩

theorem supplied_getBlock (reader : Reader) (session : Session) (path written : Text) :
    Supplied reader [] session (session.getBlock reader path written).1 [] := by
  have stocked := stocked_storedBlock reader session path
  unfold getBlock
  cases taken : session.storedBlock path with
  | mk next found =>
    rw [taken] at stocked
    cases found with
    | some block => exact .of_stocked stocked []
    | none => exact ⟨_, _, stocked.trans (stocked_receiveBlock reader next path written), .refl _⟩

theorem load_of_stored (known : session.store.raw? path = some raw) :
    session.load reader path written = (session.note (.stored path), .ok raw) := by
  simp [load, storedText, known]

theorem load_of_missing (missing : session.store.raw? path = none) :
    session.load reader path written =
      (session.note (.requested path)).receiveText path written (reader.read path) := by
  simp [load, storedText, missing]

theorem supplied_load (reader : Reader) (session : Session) (path written : Text) :
    Supplied reader [] session (session.load reader path written).1 [] := by
  cases known : session.store.raw? path with
  | some raw =>
    rw [load_of_stored known]
    exact .of_stocked (.of_note rfl) []
  | none =>
    rw [load_of_missing known]
    exact ⟨_, _, (Stocked.of_request known).trans (stocked_receiveText written known), .refl _⟩

theorem supplied_transformAccepted (reader : Reader) (session : Session) (document text : Text) :
    Supplied reader [] session (session.transformAccepted reader document text).1 [] := by
  unfold transformAccepted
  split
  next => exact supplied_transform reader session document text
  next => exact .of_stocked (.refl reader session) []

end Session
end Inlay
