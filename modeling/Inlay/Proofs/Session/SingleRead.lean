import Inlay.Proofs.Session.Coherence

set_option autoImplicit false

namespace Inlay

open Text Markup

def Step.transforms : Step → Bool
  | .transform .. | .transformAccepted .. | .transformAll .. => true
  | _ => false

namespace Session

variable {reader : Reader} {session before middle after next : Session} {reference : Import}
variable {document current path written : Text} {references : List Import}

def ReadsClaimed (before after : Session) : Prop :=
  ∃ claimed asked, after.ledger.paths = before.ledger.paths ++ claimed ∧
    after.reads = before.reads ++ asked ∧ asked.Sublist claimed

namespace ReadsClaimed

theorem of_keeps (kept : before.Keeps after) (quiet : after.reads = before.reads) :
    ReadsClaimed before after :=
  ⟨[], [], by rw [kept.ledger, List.append_nil], by rw [quiet, List.append_nil], .slnil⟩

theorem refl (session : Session) : ReadsClaimed session session :=
  .of_keeps (.refl session) rfl

theorem trans (early : ReadsClaimed before middle) (late : ReadsClaimed middle after) :
    ReadsClaimed before after := by
  obtain ⟨claimed, asked, paths, reads, within⟩ := early
  obtain ⟨further, more, paths', reads', within'⟩ := late
  refine ⟨claimed ++ further, asked ++ more, ?_, ?_, within.append within'⟩
  next => rw [paths', paths, List.append_assoc]
  next => rw [reads', reads, List.append_assoc]

end ReadsClaimed

theorem reads_storedBlock (session : Session) (path : Text) :
    (session.storedBlock path).1.reads =
      session.reads ++ if session.store.knows path then [] else [path] := by
  rcases session.store_cases path with ⟨block, stored⟩ | ⟨unparsed, raw, stored⟩ | unknown
  next => simp [storedBlock_of_parsed stored, Store.knows, stored]
  next => simp [storedBlock_of_raw unparsed stored, Store.knows, Store.contains, stored]
  next => simp [storedBlock_of_unknown unknown, unknown]

-- What is asked for twice is asked of the reader twice, as long as no answer has come.
theorem reads_storedBlock_twice (unknown : session.store.knows path = false) :
    ((session.storedBlock path).1.storedBlock path).1.reads = session.reads ++ [path, path] := by
  simp [storedBlock_of_unknown unknown, reads_storedBlock, unknown]

theorem readsClaimed_storedBlock (claimed : Claimed document reference session next) :
    ReadsClaimed session (next.storedBlock reference.path).1 := by
  refine ⟨[reference.path], if next.store.knows reference.path then [] else [reference.path],
    ?_, ?_, ?_⟩
  next =>
    rw [(touches_storedBlock next reference.path).kept.ledger, Ledger.paths, claimed.entries,
      List.map_append]
    rfl
  next => rw [reads_storedBlock, claimed.reads]
  next => split <;> simp

section Advance

variable (onward : ∀ session current, ReadsClaimed session
  (session.advance reader document current references).1)

include onward

theorem readsClaimed_proceed (session : Session) (current : Text) (reference : Import)
    (block : Block) : ReadsClaimed session
      (session.proceed reader document current reference references block).1 := by
  obtain ⟨journal, quiet, same⟩ := merge_fst session document current reference block
  unfold proceed
  cases merged : session.merge document current reference block with
  | mk next result =>
    have kept : ReadsClaimed session next := by
      rw [merged] at same
      have quiet' : next.reads = session.reads := by
        rw [show next = _ from same]
        exact quiet
      exact .of_keeps (keeps_merge merged) quiet'
    cases result with
    | error failure => exact kept
    | ok text => exact kept.trans (onward next text)

theorem readsClaimed_resume (session : Session) (current : Text) (reference : Import) :
    ReadsClaimed session (session.resume reader document current reference references).1 := by
  rw [resume_eq]
  have quiet := reads_receiveBlock session reference.path reference.blockPath
    (reader.read reference.path)
  cases received : session.receiveBlock reference.path reference.blockPath
      (reader.read reference.path) with
  | mk next result =>
    rw [received] at quiet
    have kept : ReadsClaimed session next := .of_keeps (keeps_receiveBlock received) quiet
    cases result with
    | error failure => exact kept
    | ok block => exact kept.trans (readsClaimed_proceed onward next current reference block)

end Advance

theorem readsClaimed_advance (reader : Reader) (document : Text) (references : List Import)
    (session : Session) (current : Text) :
    ReadsClaimed session (session.advance reader document current references).1 := by
  induction references generalizing session current with
  | nil => exact .refl session
  | cons reference references ih =>
    rw [advance_cons]
    cases claimed : session.claimImport document reference with
    | mk next result =>
    cases result with
    | error failure =>
      have declined := declined_of_claimImport claimed
      exact ⟨[], [], by simp [Ledger.paths, declined.ledger], by simp [declined.reads], .slnil⟩
    | ok done =>
      have asked := readsClaimed_storedBlock (claimed_of_claimImport claimed)
      dsimp only
      unfold serve
      cases taken : next.storedBlock reference.path with
      | mk served found =>
        rw [taken] at asked
        cases found with
        | some block => exact asked.trans (readsClaimed_proceed ih served current reference block)
        | none =>
          dsimp only
          -- The read is answered now or in a later turn; in between nothing is asked for.
          cases reader.pauses reference.path with
          | zero => exact asked.trans (readsClaimed_resume ih served current reference)
          | succ pauses => exact asked

theorem readsClaimed_turn (reader : Reader) (document : Text) (session : Session) (job : Job) :
    ReadsClaimed session (session.turn reader document job).1 := by
  match job with
  | .ready _ [] => exact .of_keeps ⟨rfl, rfl, rfl⟩ ((reads_note ..).trans (List.append_nil _))
  | .ready text (reference :: references) =>
    exact readsClaimed_advance reader document (reference :: references) session text
  | .waiting (pauses + 1) _ _ _ => exact .refl session
  | .waiting 0 current reference references =>
    exact readsClaimed_resume (readsClaimed_advance reader document references) session current
      reference
  | .finished _ => exact .refl session

theorem readsClaimed_round (reader : Reader) (session : Session) (tasks : List Task) :
    ReadsClaimed session (session.round reader tasks).1 := by
  induction tasks generalizing session with
  | nil => exact .refl session
  | cons task tasks ih => exact (readsClaimed_turn ..).trans (ih _)

theorem readsClaimed_settle (reader : Reader) (session : Session) (tasks : List Task) :
    ReadsClaimed session (session.settle reader tasks).1 := by
  fun_induction settle reader session tasks with
  | case1 session tasks ended => exact .refl session
  | case2 session tasks running ih => exact (readsClaimed_round reader session tasks).trans ih

theorem readsClaimed_transform (reader : Reader) (session : Session) (document text : Text) :
    ReadsClaimed session (session.transform reader document text).1 := by
  have turned := readsClaimed_turn reader.still document session
    (.ready text (Import.scan session.settings.blockSuffix document text))
  rw [turn_still_ready] at turned
  exact turned

-- An import that is neither on record nor stored is read.
theorem mem_reads_transform {text : Text} {reference : Import} (reader : Reader)
    (imports : Import.scan session.settings.blockSuffix document text = reference :: references)
    (free : reference.path ∉ session.ledger.paths)
    (unknown : session.store.knows reference.path = false) :
    ∃ later, (session.transform reader document text).1.reads =
      session.reads ++ reference.path :: later := by
  have turned := congrArg Prod.fst (turn_still_ready reader session document text)
  rw [imports] at turned
  obtain ⟨next, passed⟩ := exists_claimImport document (Ledger.get?_eq_none_iff.2 free)
  have claimed := claimed_of_claimImport passed
  rw [← claimed.store] at unknown
  obtain ⟨-, later, -, reads, -⟩ := readsClaimed_resume
    (readsClaimed_advance reader.still document references)
    (next.note (.requested reference.path)) text reference
  refine ⟨later, ?_⟩
  rw [← turned]
  simp only [turn, advance_cons, passed, serve, storedBlock_of_unknown unknown]
  refine reads.trans ?_
  simp [claimed.reads]

end Session

namespace Run

open Session

variable {run : Run} {step : Step} {steps : List Step} {path : Text}

def transformReads (run : Run) : List Step → List Text
  | [] => []
  | step :: steps =>
    (if step.transforms then run.readsSince (run.step step).1 else []) ++
      (run.step step).1.transformReads steps

theorem transformReads_append (run : Run) (first second : List Step) :
    run.transformReads (first ++ second) =
      run.transformReads first ++ (run.after first).transformReads second := by
  induction first generalizing run with
  | nil => rfl
  | cons step first ih => simp [transformReads, ih]

theorem reads_step (run : Run) (step : Step) : (run.step step).1.session.reads =
    run.session.reads ++ run.readsSince (run.step step).1 := by
  cases kept : step.keepsStore with
  | true =>
    obtain ⟨_, stocked, -⟩ := run.exists_stocked kept
    obtain ⟨events, grown, reads⟩ := stocked.journal
    rw [← reads, Session.reads, grown, Journal.reads, List.filterMap_append]
    rfl
  | false =>
    have same : (run.step step).1.session.journal = run.session.journal := by
      cases step with
      | clearStore => rfl
      | reset => rfl
      | _ => cases kept
    rw [readsSince, Session.reads, same, List.drop_length]
    simp [Session.reads, Journal.reads]

theorem readsClaimed_step (run : Run) (transforms : step.transforms = true) :
    ReadsClaimed run.session (run.step step).1.session := by
  cases step with
  | transform document text => exact readsClaimed_transform ..
  | transformAccepted document text =>
    change ReadsClaimed run.session (run.session.transformAccepted _ document text).1
    unfold transformAccepted
    split
    next => exact readsClaimed_transform ..
    next => exact .refl run.session
  | transformAll documents => exact readsClaimed_settle ..
  | _ => cases transforms

theorem ledger_step (run : Run) (kept : step.keepsLedger = true)
    (other : step.transforms = false) :
    (run.step step).1.session.ledger = run.session.ledger := by
  cases step with
  | load path written => exact (keeps_load run.supply.reader run.session path written).ledger
  | getBlock path written =>
    have taken : run.session.Keeps (run.session.getBlock run.supply.reader path written).1 :=
      keeps_getBlock rfl
    exact taken.ledger
  | supply path text? => rfl
  | clearStore => rfl
  | clearLedger => cases kept
  | reset => cases kept
  | _ => cases other

theorem exists_claimed (run : Run) (kept : ∀ step ∈ steps, step.keepsLedger = true) :
    ∃ claimed, (run.after steps).session.ledger.paths = run.session.ledger.paths ++ claimed ∧
      (run.transformReads steps).Sublist claimed := by
  induction steps generalizing run with
  | nil => exact ⟨[], (List.append_nil _).symm, .slnil⟩
  | cons step steps ih =>
    obtain ⟨here, rest⟩ := List.forall_mem_cons.1 kept
    obtain ⟨later, paths, within⟩ := ih (run.step step).1 rest
    rw [after_cons, transformReads, paths]
    cases transforms : step.transforms with
    | true =>
      obtain ⟨claimed, asked, paths', reads, within'⟩ := run.readsClaimed_step transforms
      rw [reads_step, List.append_cancel_left_eq] at reads
      refine ⟨claimed ++ later, by rw [paths', List.append_assoc], ?_⟩
      rw [if_pos rfl, reads]
      exact within'.append within
    | false =>
      rw [run.ledger_step here transforms]
      exact ⟨later, rfl, by simpa using within⟩

theorem nodup_transformReads (run : Run) (kept : ∀ step ∈ steps, step.keepsLedger = true) :
    (run.transformReads steps).Nodup := by
  obtain ⟨claimed, paths, within⟩ := run.exists_claimed kept
  have distinct : (run.after steps).session.ledger.paths.Nodup :=
    (run.after steps).session.ledger.distinct
  rw [paths, List.nodup_append] at distinct
  exact distinct.2.1.sublist within

-- A path that a transform reads in vain stays as it is in the store, without a text.
theorem entry_of_failed_read (run : Run) (transforms : step.transforms = true)
    (asked : path ∈ run.readsSince (run.step step).1) (absent : run.supply.text? path = none) :
    (run.step step).1.session.store.entry path = run.session.store.entry path ∧
      (run.step step).1.session.store.contains path = false := by
  have kept : step.keepsStore = true := by
    cases step with
    | clearStore => cases transforms
    | reset => cases transforms
    | _ => rfl
  have unknown := run.unknown_of_read kept asked
  have missing : (run.step step).1.session.store.raw? path = none := by
    rw [run.raw?_step kept, unknown, reading, lookup_filterMap_text, absent]
    simp
  obtain ⟨_, stocked, -⟩ := run.exists_stocked kept
  refine ⟨?_, by rw [Store.contains, missing]; rfl⟩
  rw [Store.entry, missing, stocked.parsed path missing, ← unknown]
  rfl

/-- Over a run that never clears the ledger, transforms read a path once at most, whatever else
happens, and only paths that were claimed in this run. So no batch reads a path twice, and a path
whose read failed is not read again, though the store does not have it. Once the ledger is cleared,
a path that is not stored is read again. The store alone does not keep two reads of a path apart. -/
theorem read_once (run : Run) {steps : List Step}
    (kept : ∀ step ∈ steps, step.keepsLedger = true) :
    (run.transformReads steps).Nodup ∧
    (∀ path ∈ run.transformReads steps, path ∉ run.session.ledger.paths ∧
      path ∈ (run.after steps).session.ledger.paths) ∧
    (∀ early step late, steps = early ++ step :: late → step.transforms = true →
      let here := run.after early
      let next := (here.step step).1
      (here.readsSince next).Nodup ∧
      ∀ path ∈ here.readsSince next,
        path ∉ run.transformReads early ∧ path ∉ next.transformReads late ∧
        (here.supply.text? path = none →
          next.session.store.entry path = here.session.store.entry path ∧
          next.session.store.contains path = false)) ∧
    (∀ document text reference references,
      let cleared := ((run.after steps).step .clearLedger).1
      Import.scan cleared.session.settings.blockSuffix document text = reference :: references →
      cleared.session.store.knows reference.path = false →
      reference.path ∈ cleared.readsSince (cleared.step (.transform document text)).1) ∧
    ∀ (session : Session) path, session.store.knows path = false →
      ((session.storedBlock path).1.storedBlock path).1.reads = session.reads ++ [path, path] := by
  have distinct := run.nodup_transformReads kept
  refine ⟨distinct, ?_, ?_, ?_, fun _ _ => reads_storedBlock_twice⟩
  next =>
    intro path member
    obtain ⟨claimed, paths, within⟩ := run.exists_claimed kept
    have inside := within.subset member
    have apart : (run.after steps).session.ledger.paths.Nodup :=
      (run.after steps).session.ledger.distinct
    rw [paths, List.nodup_append] at apart
    rw [paths]
    exact ⟨fun earlier => apart.2.2 path earlier path inside rfl, List.mem_append_right _ inside⟩
  next =>
    rintro early step late rfl transforms
    rw [transformReads_append, transformReads, if_pos transforms, List.nodup_append,
      List.nodup_append] at distinct
    obtain ⟨-, ⟨once, -, later⟩, earlier⟩ := distinct
    refine ⟨once, fun path asked => ⟨?_, ?_, (run.after early).entry_of_failed_read transforms asked⟩⟩
    next => exact fun before => earlier path before path (List.mem_append_left _ asked) rfl
    next => exact fun after => later path asked path after rfl
  next =>
    intro document text reference references cleared imports missing
    have free : reference.path ∉ cleared.session.ledger.paths := List.not_mem_nil
    obtain ⟨later, reads⟩ :=
      mem_reads_transform cleared.supply.reader imports free missing
    have grown := cleared.reads_step (.transform document text)
    rw [Run.step, keep, reads, List.append_cancel_left_eq] at grown
    rw [Run.step, keep, ← grown]
    exact List.mem_cons_self

theorem read_once_of_missing_block :
    let first : Text := "/src/a.svelte.xblock"
    let second : Text := "/src/b.svelte.xblock"
    let one : Text := "import A from \"./a.svelte.xblock\";"
    let other : Text := "import B from \"./b.svelte.xblock\";"
    let run : Run := { supply := { texts := [(first, some "<p/>".toList)], pauses := fun _ => 2 } }
    let steps : List Step :=
      [.transformAll [("/src/A.svelte", one), ("/src/B.svelte", one), ("/src/C.svelte", other)],
        .supply second (some "<p/>".toList), .transform "/src/D.svelte" other]
    (∀ step ∈ steps, step.keepsLedger = true) ∧ run.transformReads steps = [first, second] ∧
      (run.transformReads steps).Nodup ∧
      ∀ path ∈ run.transformReads steps, path ∈ (run.after steps).session.ledger.paths := by
  intro first second one other run steps
  have kept : ∀ step ∈ steps, step.keepsLedger = true := by decide
  obtain ⟨distinct, claimed, -⟩ := run.read_once kept
  exact ⟨kept, by decide +kernel, distinct, fun path member => (claimed path member).2⟩

end Run
end Inlay
