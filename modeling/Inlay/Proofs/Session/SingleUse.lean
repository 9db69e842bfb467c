import Inlay.Proofs.Session.Attempt
import Inlay.Session.Run
import Mathlib.Data.List.Nodup

set_option autoImplicit false

namespace Inlay

open Text Markup

def isFor (path : Text) (reference : Import) : Bool :=
  reference.path == path

-- Whether a job has no import of a path left and did not fail.
def Job.isPast (path : Text) (job : Job) : Bool :=
  !job.isFailed && !job.pending.any (isFor path)

-- For each document whether it imports a path.
def importers (suffix path : Text) (documents : List (Text × Text)) : List Bool :=
  documents.map fun (document, text) => (Import.scan suffix document text).any (isFor path)

-- How many of the marked tasks are past their imports of a path.
def pastCount (path : Text) (marks : List Bool) (tasks : List Task) : Nat :=
  (marks.zip tasks).countP fun (mark, task) => mark && task.job.isPast path

def pendingRefusals (tasks : List Task) : List Failure :=
  tasks.flatMap (·.job.refusals)

-- The claims that tasks still have to make.
def pendingClaims (tasks : List Task) : List Claim :=
  tasks.flatMap fun task => task.job.pending.map (Claim.mk task.document)

structure Call where
  document : Text
  text : Text
  result : Except Failure (Option Text)

namespace Call

def refusals (call : Call) : List Failure :=
  (Job.finished call.result).refusals

def claims (suffix : Text) (call : Call) : List Claim :=
  (Import.scan suffix call.document call.text).map (Claim.mk call.document)

-- Whether a call gave a result for a document that imports a path.
def uses (suffix path : Text) (call : Call) : Bool :=
  match call.result with
  | .ok (some _) => (Import.scan suffix call.document call.text).any (isFor path)
  | _ => false

end Call

-- The calls of a batch, from its documents and their results.
def answered (documents : List (Text × Text)) (results : List (Except Failure (Option Text))) :
    List Call :=
  List.zipWith (fun document result => ⟨document.1, document.2, result⟩) documents results

theorem Ledger.get?_of_mem {ledger : Ledger} {path : Text} {usage : Usage}
    (member : (path, usage) ∈ ledger.entries) : ledger.get? path = some usage := by
  obtain ⟨early, late, whole⟩ := List.append_of_mem member
  have distinct := ledger.distinct
  rw [whole, List.map_append, List.map_cons, List.nodup_middle, List.nodup_cons,
    List.mem_append, not_or] at distinct
  rw [Ledger.get?, whole, List.lookup_append, Ledger.lookup_eq_none_iff.2 distinct.1.1]
  simp

namespace Session

variable {before middle after : Session} {attempts others : List Attempt}
variable {job next : Job} {tasks moved settled : List Task} {document : Text}

theorem Turned.isPast_le (turned : Turned document before job attempts after next) (path : Text) :
    (next.isPast path).toNat ≤
      (job.isPast path).toNat + (granted attempts).countP (isFor path) := by
  -- A turn takes a job past a path only by claims of that path.
  rcases turned.covers with failed | ⟨running, whole⟩
  next => simp [Job.isPast, failed]
  next =>
    by_cases claimed : (granted attempts).any (isFor path) = true
    next =>
      obtain ⟨reference, member, here⟩ := List.any_eq_true.1 claimed
      have positive := List.countP_pos_iff.2 ⟨reference, member, here⟩
      have bound := Bool.toNat_le (next.isPast path)
      omega
    next =>
      have same : job.pending.any (isFor path) = next.pending.any (isFor path) := by
        rw [whole, List.any_append]
        simp [Bool.eq_false_iff.2 claimed]
      have bound : (next.isPast path).toNat ≤ (job.isPast path).toNat := by
        rw [Job.isPast, Job.isPast, running, same]
        cases next.isFailed <;> simp
      omega

structure Rounded (before : Session) (tasks : List Task) (attempts : List Attempt)
    (after : Session) (moved : List Task) : Prop where
  traced : Traced before attempts after
  length : moved.length = tasks.length
  refused : (pendingRefusals moved).Perm (pendingRefusals tasks ++ refusals attempts)
  past : ∀ path marks, pastCount path marks moved ≤
    pastCount path marks tasks + (granted attempts).countP (isFor path)
  once : ∀ claim, (attempts.map (·.claim)).count claim + (pendingClaims moved).count claim ≤
    (pendingClaims tasks).count claim

theorem Rounded.refl (session : Session) (tasks : List Task) :
    Rounded session tasks [] session tasks where
  traced := (Keeps.refl session).traced
  length := rfl
  refused := by simp
  past := by simp
  once := by simp

theorem Rounded.trans (early : Rounded before tasks attempts middle moved)
    (late : Rounded middle moved others after settled) :
    Rounded before tasks (attempts ++ others) after settled where
  traced := early.traced.append late.traced
  length := late.length.trans early.length
  refused := by
    rw [refusals_append, ← List.append_assoc]
    exact late.refused.trans (early.refused.append_right _)
  past := by
    intro path marks
    have first := early.past path marks
    have second := late.past path marks
    rw [granted_append, List.countP_append]
    omega
  once := by
    intro claim
    have first := early.once claim
    have second := late.once claim
    rw [List.map_append, List.count_append]
    omega

theorem Turned.cons (turned : Turned document before job attempts middle next)
    (rest : Rounded middle tasks others after moved) :
    Rounded before (⟨document, job⟩ :: tasks) (attempts ++ others) after
      (⟨document, next⟩ :: moved) where
  traced := turned.traced.append rest.traced
  length := by simp [rest.length]
  refused := by
    rw [List.perm_iff_count]
    intro failure
    have there := rest.refused.count_eq failure
    simp only [pendingRefusals, List.flatMap_cons, turned.refused, refusals_append,
      List.count_append] at there ⊢
    omega
  past := by
    intro path marks
    cases marks with
    | nil => simp [pastCount]
    | cons mark marks =>
      have here := turned.isPast_le path
      have there := rest.past path marks
      simp only [pastCount, List.zip_cons_cons, List.countP_cons, granted_append,
        List.countP_append] at there ⊢
      cases mark with
      | false => simp only [Bool.false_and]; omega
      | true =>
        have unit (b : Bool) : (if b = true then 1 else 0) = b.toNat := by cases b <;> rfl
        simp only [Bool.true_and, unit]
        omega
  once := by
    intro claim
    have here := turned.inOrder.sublist.count_le claim
    have there := rest.once claim
    simp only [pendingClaims, List.flatMap_cons, List.map_append, List.count_append] at here there ⊢
    omega

theorem rounded_round (reader : Reader) (session : Session) (tasks : List Task) :
    ∃ attempts, Rounded session tasks attempts (session.round reader tasks).1
      (session.round reader tasks).2 := by
  induction tasks generalizing session with
  | nil => exact ⟨[], .refl session []⟩
  | cons task tasks ih =>
    obtain ⟨attempts, turned⟩ := turned_turn reader task.document session task.job
    obtain ⟨others, rest⟩ := ih (session.turn reader task.document task.job).1
    exact ⟨attempts ++ others, turned.cons rest⟩

theorem rounded_settle (reader : Reader) (session : Session) (tasks : List Task) :
    ∃ attempts, Rounded session tasks attempts (session.settle reader tasks).1
      (session.settle reader tasks).2 := by
  fun_induction settle reader session tasks with
  | case1 session tasks ended => exact ⟨[], .refl session tasks⟩
  | case2 session tasks running ih =>
    obtain ⟨attempts, round⟩ := rounded_round reader session tasks
    obtain ⟨others, rest⟩ := ih
    exact ⟨attempts ++ others, round.trans rest⟩

theorem turnsLeft_settle (reader : Reader) (session : Session) (tasks : List Task) :
    turnsLeft reader.pauses (session.settle reader tasks).2 = 0 := by
  fun_induction settle reader session tasks with
  | case1 session tasks ended => exact ended
  | case2 session tasks running ih => exact ih

theorem exists_result {pauses : Text → Nat} {tasks : List Task}
    (ended : turnsLeft pauses tasks = 0) :
    ∀ task ∈ tasks, ∃ result, task.job = .finished result := by
  induction tasks with
  | nil => simp
  | cons task tasks ih =>
    rw [turnsLeft, Nat.add_eq_zero_iff] at ended
    intro other member
    rcases List.mem_cons.1 member with rfl | later
    next =>
      cases job : other.job with
      | finished result => exact ⟨result, rfl⟩
      | ready text references => simp [job, Job.turnsLeft] at ended
      | waiting pauses current reference references => simp [job, Job.turnsLeft] at ended
    next => exact ih ended.2 other later

structure Called (before : Session) (attempts : List Attempt) (after : Session)
    (calls : List Call) : Prop where
  traced : Traced before attempts after
  refused : (calls.flatMap (·.refusals)).Perm (refusals attempts)
  used : ∀ path, calls.countP (·.uses before.settings.blockSuffix path) ≤
    (granted attempts).countP (isFor path)
  once : ∀ claim, (attempts.map (·.claim)).count claim ≤
    (calls.flatMap (·.claims before.settings.blockSuffix)).count claim

theorem Called.append {early late : List Call} (first : Called before attempts middle early)
    (second : Called middle others after late) :
    Called before (attempts ++ others) after (early ++ late) where
  traced := first.traced.append second.traced
  refused := by
    rw [List.flatMap_append, refusals_append]
    exact first.refused.append second.refused
  used := by
    intro path
    have here := first.used path
    have there := second.used path
    rw [first.traced.settings] at there
    rw [List.countP_append, granted_append, List.countP_append]
    omega
  once := by
    intro claim
    have here := first.once claim
    have there := second.once claim
    rw [first.traced.settings] at there
    rw [List.map_append, List.count_append, List.flatMap_append, List.count_append]
    omega

theorem called_of_keeps (kept : before.Keeps after) : Called before [] after [] where
  traced := kept.traced
  refused := by simp
  used := by simp
  once := by simp

theorem Worked.called {text : Text} {result : Except Failure (Option Text)}
    (worked : Worked document (Import.scan before.settings.blockSuffix document text) before attempts
      after (.finished result)) : Called before attempts after [⟨document, text, result⟩] where
  traced := worked.traced
  refused := by simp [Call.refusals, worked.refused]
  used := by
    intro path
    rw [List.countP_singleton]
    split
    next uses =>
      unfold Call.uses at uses
      split at uses
      next code given =>
        dsimp only at given
        subst given
        rcases worked.covers with failed | whole
        next => cases failed
        next =>
          rw [whole, Job.pending, List.append_nil] at uses
          obtain ⟨reference, member, here⟩ := List.any_eq_true.1 uses
          exact List.countP_pos_iff.2 ⟨reference, member, here⟩
      next => cases uses
    next => exact Nat.zero_le _
  once := by
    intro claim
    have claims := worked.inOrder
    rw [Job.pending, List.map_nil, List.append_nil] at claims
    rw [List.flatMap_singleton]
    exact claims.sublist.count_le claim

-- The attempts of a transform.
def transformAttempts (reader : Reader) (session : Session) (document text : Text) :
    List Attempt :=
  session.attemptsSince (session.transform reader document text).1

theorem worked_transform (reader : Reader) (session : Session) (document text : Text) :
    let outcome := session.transform reader document text
    Worked document (Import.scan session.settings.blockSuffix document text) session
      (session.transformAttempts reader document text) outcome.1 (.finished outcome.2) := by
  obtain ⟨attempts, turned⟩ := turned_turn reader.still document session
    (.ready text (Import.scan session.settings.blockSuffix document text))
  rw [turn_still_ready] at turned
  rw [transformAttempts, turned.traced.attemptsSince_eq]
  exact
    { traced := turned.traced
      refused := by rw [turned.refused]; rfl
      covers := turned.covers.imp_right (·.2)
      inOrder := turned.inOrder }

theorem called_transform (reader : Reader) (session : Session) (document text : Text) :
    let outcome := session.transform reader document text
    ∃ attempts, Called session attempts outcome.1 [⟨document, text, outcome.2⟩] := by
  exact ⟨_, (worked_transform reader session document text).called⟩

theorem called_transformAccepted (reader : Reader) (session : Session) (document text : Text) :
    let outcome := session.transformAccepted reader document text
    ∃ attempts, Called session attempts outcome.1 [⟨document, text, outcome.2⟩] := by
  unfold transformAccepted
  split
  next => exact called_transform reader session document text
  next =>
    exact ⟨[],
      { traced := (Keeps.refl session).traced
        refused := by simp [Call.refusals, Job.refusals]
        used := by simp [Call.uses]
        once := by simp }⟩

section Batch

variable {documents : List (Text × Text)}

theorem refusals_answered (aligned : tasks.length = documents.length)
    (ended : ∀ task ∈ tasks, ∃ result, task.job = .finished result) :
    (answered documents (tasks.filterMap fun task => task.job.result?)).flatMap (·.refusals) =
      pendingRefusals tasks := by
  induction tasks generalizing documents with
  | nil => simp [answered, pendingRefusals]
  | cons task tasks ih =>
    cases documents with
    | nil => simp at aligned
    | cons document documents =>
      obtain ⟨result, job⟩ := ended task (by simp)
      have later := ih (Nat.succ.inj aligned) fun other member => ended other (by simp [member])
      simp only [answered, pendingRefusals, List.flatMap_cons, job, Call.refusals,
        List.filterMap_cons, Job.result?, List.zipWith_cons_cons] at later ⊢
      rw [later]

theorem uses_answered (suffix path : Text)
    (ended : ∀ task ∈ tasks, ∃ result, task.job = .finished result) :
    (answered documents (tasks.filterMap fun task => task.job.result?)).countP
        (·.uses suffix path) ≤
      pastCount path (importers suffix path documents) tasks := by
  induction tasks generalizing documents with
  | nil => simp [answered, pastCount]
  | cons task tasks ih =>
    cases documents with
    | nil => simp [answered]
    | cons document documents =>
      obtain ⟨result, job⟩ := ended task (by simp)
      have later := @ih documents fun other member => ended other (by simp [member])
      have here : (Call.mk document.1 document.2 result).uses suffix path = true →
          ((Import.scan suffix document.1 document.2).any (isFor path) &&
            (Job.finished result).isPast path) = true := by
        unfold Call.uses
        split
        next code given =>
          dsimp only at given
          subst given
          simp [Job.isPast, Job.isFailed, Job.pending]
        next => simp
      simp only [answered, pastCount, importers, List.filterMap_cons, job, Job.result?,
        List.zipWith_cons_cons, List.countP_cons, List.map_cons, List.zip_cons_cons] at later ⊢
      split
      next uses => rw [if_pos (here uses)]; omega
      next => omega

theorem pendingRefusals_ofText (suffix : Text) (documents : List (Text × Text)) :
    pendingRefusals (documents.map fun (document, text) => Task.ofText suffix document text) =
      [] := by
  induction documents with
  | nil => rfl
  | cons document documents ih => exact ih

theorem pendingClaims_ofText (suffix : Text) (documents : List (Text × Text)) :
    pendingClaims (documents.map fun (document, text) => Task.ofText suffix document text) =
      documents.flatMap fun (document, text) =>
        (Import.scan suffix document text).map (Claim.mk document) := by
  rw [pendingClaims, List.flatMap_map]
  rfl

theorem claims_answered {results : List (Except Failure (Option Text))} (suffix : Text)
    (aligned : results.length = documents.length) :
    (answered documents results).flatMap (·.claims suffix) =
      documents.flatMap fun (document, text) =>
        (Import.scan suffix document text).map (Claim.mk document) := by
  induction documents generalizing results with
  | nil => simp [answered]
  | cons document documents ih =>
    cases results with
    | nil => simp at aligned
    | cons result results =>
      have later := ih (Nat.succ.inj aligned)
      simp only [answered, List.zipWith_cons_cons, List.flatMap_cons, Call.claims] at later ⊢
      rw [later]

theorem length_results (ended : ∀ task ∈ tasks, ∃ result, task.job = .finished result) :
    (tasks.filterMap fun task => task.job.result?).length = tasks.length := by
  induction tasks with
  | nil => rfl
  | cons task tasks ih =>
    obtain ⟨result, job⟩ := ended task (by simp)
    rw [List.filterMap_cons, job]
    exact congrArg Nat.succ (ih fun other member => ended other (by simp [member]))

theorem pastCount_ofText (suffix path : Text) (documents : List (Text × Text)) :
    pastCount path (importers suffix path documents)
      (documents.map fun (document, text) => Task.ofText suffix document text) = 0 := by
  induction documents with
  | nil => rfl
  | cons document documents ih =>
    simp only [pastCount, importers, List.map_cons, List.zip_cons_cons, List.countP_cons] at ih ⊢
    rw [ih]
    simp [Task.ofText, Job.isPast, Job.isFailed, Job.pending]

end Batch

theorem called_transformAll (reader : Reader) (session : Session)
    (documents : List (Text × Text)) :
    let outcome := session.transformAll reader documents
    ∃ attempts, Called session attempts outcome.1 (answered documents outcome.2) := by
  obtain ⟨attempts, rounded⟩ := rounded_settle reader session (documents.map fun (document, text) =>
    Task.ofText session.settings.blockSuffix document text)
  have ended := exists_result (turnsLeft_settle reader session
    (documents.map fun (document, text) => Task.ofText session.settings.blockSuffix document text))
  refine ⟨attempts, ?_⟩
  constructor
  case traced => exact rounded.traced
  case refused =>
    have refused := rounded.refused
    rw [pendingRefusals_ofText, List.nil_append] at refused
    rw [transformAll, refusals_answered (by simpa using rounded.length) ended]
    exact refused
  case used =>
    intro path
    -- Only documents that import the path are counted: at the start none of them is past it.
    have past := rounded.past path (importers session.settings.blockSuffix path documents)
    rw [pastCount_ofText, Nat.zero_add] at past
    exact Nat.le_trans (uses_answered _ path ended) past
  case once =>
    intro claim
    have once := rounded.once claim
    rw [pendingClaims_ofText] at once
    rw [transformAll, claims_answered _ (by simpa [length_results ended] using rounded.length)]
    omega

theorem Traced.grows (traced : Traced before attempts after) :
    before.ledger.entries <+: after.ledger.entries :=
  ⟨records attempts, traced.entries.symm⟩

theorem Traced.countP_le_one (traced : Traced before attempts after) (path : Text) :
    (granted attempts).countP (isFor path) ≤ 1 := by
  have distinct := after.ledger.distinct
  rw [traced.entries, List.map_append, paths_records] at distinct
  have once := List.nodup_iff_count_le_one.1 (List.nodup_append.1 distinct).2.1 path
  rw [List.count, List.countP_map] at once
  exact once

theorem Traced.get?_of_passes (traced : Traced before attempts after) {winner : Attempt}
    (member : winner ∈ attempts) (passes : winner.passes = true) :
    after.ledger.get? winner.path = some winner.usage := by
  apply Ledger.get?_of_mem
  rw [traced.entries]
  apply List.mem_append_right
  exact List.mem_map.2 ⟨winner, List.mem_filter.2 ⟨member, passes⟩, rfl⟩

-- An attempt finds the record of each one that passed before it.
theorem Traced.get?_of_earlier (traced : Traced before attempts after)
    {earlier later : List Attempt} {winner other : Attempt}
    (split : attempts = earlier ++ winner :: later) (passes : winner.passes = true)
    (member : other ∈ later) : other.ledger.get? winner.path = some winner.usage := by
  obtain ⟨between, rest, rfl⟩ := List.append_of_mem member
  have seen := traced.seen (earlier ++ winner :: between) other rest (by simp [split])
  -- What an attempt sees are the records of all that passed before it, the winner's among them.
  apply Ledger.get?_of_mem
  rw [seen, records_append, records_cons_of_passes between passes]
  simp

theorem Traced.path_ne_of_passes (traced : Traced before attempts after)
    {earlier later : List Attempt} {winner other : Attempt}
    (split : attempts = earlier ++ winner :: later) (passes : winner.passes = true)
    (member : other ∈ earlier) : other.path ≠ winner.path := by
  intro same
  have fresh := Attempt.passes_iff.1 passes
  have seen := traced.seen earlier winner later split
  obtain ⟨first, between, rfl⟩ := List.append_of_mem member
  rw [Ledger.paths, seen, ← same, List.map_append, List.mem_append, not_or] at fresh
  by_cases granted : other.passes = true
  next =>
    apply fresh.2
    simp [records_cons_of_passes between granted]
  next =>
    -- An earlier refusal means that the path was on record even then.
    rw [Attempt.passes_iff, not_not, Ledger.paths,
      traced.seen first other (between ++ winner :: later) (by simp [split])] at granted
    rw [List.map_append, List.mem_append] at granted
    rcases granted with start | first
    next => exact fresh.1 start
    next =>
      apply fresh.2
      rw [records_append, List.map_append]
      exact List.mem_append_left _ first

theorem exists_original {attempt : Attempt} (refused : attempt.passes = false) :
    ∃ original, (attempt.path, original) ∈ attempt.ledger.entries ∧
      attempt.outcome = .error (.reused (shownPath attempt.reference.blockPath attempt.path)
        attempt.usage original attempt.ledger.entries) := by
  cases recorded : attempt.ledger.get? attempt.path with
  | none => simp [Attempt.passes_iff.2 (Ledger.get?_eq_none_iff.1 recorded)] at refused
  | some original =>
    refine ⟨original, ?_, Attempt.outcome_of_recorded recorded⟩
    obtain ⟨early, late, whole, -⟩ := List.lookup_eq_some_iff.1 recorded
    simp [whole]

end Session

-- Whether a step leaves the usages on record.
def Step.keepsLedger : Step → Bool
  | .clearLedger | .reset => false
  | _ => true

namespace Run

-- The attempts that some steps make, in order.
def attempts (run : Run) (steps : List Step) : List Attempt :=
  run.session.attemptsSince (run.after steps).session

def stepCalls : Step → Answer → List Call
  | .transform document text, .code result => [⟨document, text, result⟩]
  | .transformAccepted document text, .code result => [⟨document, text, result⟩]
  | .transformAll documents, .codes results => answered documents results
  | _, _ => []

def calls (run : Run) (steps : List Step) : List Call :=
  (List.zipWith stepCalls steps (run.steps steps).2).flatten

theorem calls_cons (run : Run) (step : Step) (steps : List Step) :
    run.calls (step :: steps) =
      stepCalls step (run.step step).2 ++ (run.step step).1.calls steps := by
  simp [calls, Run.steps]

open Session

theorem called_step (run : Run) {step : Step} (kept : step.keepsLedger = true) :
    ∃ attempts, Called run.session attempts (run.step step).1.session
      (stepCalls step (run.step step).2) := by
  cases step with
  | transform document text => exact called_transform run.supply.reader run.session document text
  | transformAccepted document text =>
    exact called_transformAccepted run.supply.reader run.session document text
  | transformAll documents => exact called_transformAll run.supply.reader run.session documents
  -- No other step that is allowed touches the ledger.
  | load path written =>
    exact ⟨[], called_of_keeps (keeps_load run.supply.reader run.session path written)⟩
  | getBlock path written => exact ⟨[], called_of_keeps (keeps_getBlock rfl)⟩
  | supply path text? => exact ⟨[], called_of_keeps (.refl run.session)⟩
  | clearStore => exact ⟨[], called_of_keeps ⟨rfl, rfl, rfl⟩⟩
  | clearLedger => cases kept
  | reset => cases kept

theorem called_steps (run : Run) {steps : List Step}
    (kept : ∀ step ∈ steps, step.keepsLedger = true) :
    Called run.session (run.attempts steps) (run.after steps).session (run.calls steps) := by
  have called : ∃ attempts,
      Called run.session attempts (run.after steps).session (run.calls steps) := by
    induction steps generalizing run with
    | nil => exact ⟨[], called_of_keeps (.refl run.session)⟩
    | cons step steps ih =>
      obtain ⟨attempts, here⟩ := run.called_step (kept step (by simp))
      obtain ⟨others, there⟩ :=
        ih (run.step step).1 fun other member => kept other (by simp [member])
      rw [calls_cons]
      exact ⟨attempts ++ others, here.append there⟩
  obtain ⟨attempts, called⟩ := called
  rw [Run.attempts, called.traced.attemptsSince_eq]
  exact called

/-- Over a run that never clears the ledger a path is claimed once, and used by one call at most.
Every other attempt is refused with the usage on record, and fails the call that makes it. -/
theorem single_use (run : Run) {steps : List Step}
    (kept : ∀ step ∈ steps, step.keepsLedger = true) (path : Text) :
    (run.attempts steps).countP (fun attempt => attempt.passes && isFor path attempt.reference)
      ≤ 1 ∧
    (∀ first second, steps = first ++ second → ∀ usage,
      (run.after first).session.ledger.get? path = some usage →
      (run.after steps).session.ledger.get? path = some usage) ∧
    (∀ earlier winner later, run.attempts steps = earlier ++ winner :: later →
      winner.path = path → winner.passes = true →
      (run.after steps).session.ledger.get? path = some winner.usage ∧
      (∀ other ∈ earlier, other.path ≠ path) ∧
      ∀ other ∈ later, other.ledger.get? path = some winner.usage ∧
        (other.path = path → other.outcome =
          .error (.reused (shownPath other.reference.blockPath path) other.usage winner.usage
            other.ledger.entries))) ∧
    (∀ earlier attempt later, run.attempts steps = earlier ++ attempt :: later →
      attempt.ledger.entries = run.session.ledger.entries ++ records earlier ∧
      (attempt.passes = false → ∃ original,
        (attempt.path, original) ∈ run.session.ledger.entries ++ records earlier ∧
        attempt.outcome =
          .error (.reused (shownPath attempt.reference.blockPath attempt.path) attempt.usage
            original (run.session.ledger.entries ++ records earlier)))) ∧
    ((run.calls steps).flatMap (·.refusals)).Perm (refusals (run.attempts steps)) ∧
    (run.calls steps).countP (·.uses run.session.settings.blockSuffix path) ≤ 1 := by
  have called := run.called_steps kept
  have traced := called.traced
  have once := traced.countP_le_one path
  refine ⟨?_, ?_, ?_, ?_, called.refused, Nat.le_trans (called.used path) once⟩
  next =>
    rw [granted, List.countP_map, List.countP_filter] at once
    simpa only [Function.comp_apply, Bool.and_comm] using once
  next =>
    rintro first second rfl usage recorded
    have later := (run.after first).called_steps fun step member =>
      kept step (List.mem_append_right first member)
    rw [after_append]
    exact later.traced.grows.lookup_eq_some recorded
  next =>
    rintro earlier winner later split rfl passes
    have member : winner ∈ run.attempts steps := by simp [split]
    refine ⟨traced.get?_of_passes member passes, ?_, ?_⟩
    next => exact fun other member => traced.path_ne_of_passes split passes member
    next =>
      intro other member
      have recorded := traced.get?_of_earlier split passes member
      refine ⟨recorded, ?_⟩
      intro same
      rw [← same] at recorded ⊢
      exact Attempt.outcome_of_recorded recorded
  next =>
    intro earlier attempt later split
    have seen := traced.seen earlier attempt later split
    rw [← seen]
    exact ⟨rfl, exists_original⟩

theorem single_use_of_contended_block :
    let path : Text := "/src/a.svelte.xblock"
    let text : Text := "import A from \"./a.svelte.xblock\";"
    let run : Run := { supply := { texts := [(path, some "<p/>".toList)], pauses := fun _ => 2 } }
    let steps : List Step :=
      [.transformAll [("/src/A.svelte", text), ("/src/B.svelte", text)], .clearStore,
        .transform "/src/C.svelte" text]
    (∀ step ∈ steps, step.keepsLedger = true) ∧
      (refusals (run.attempts steps)).length = 2 ∧
      (run.calls steps).countP (·.uses run.session.settings.blockSuffix path) = 1 := by
  intro path text run steps
  have kept : ∀ step ∈ steps, step.keepsLedger = true := by decide
  obtain ⟨_, _, _, _, _, bound⟩ := run.single_use kept path
  have used : 1 ≤ (run.calls steps).countP (·.uses run.session.settings.blockSuffix path) := by
    decide +kernel
  exact ⟨kept, by decide +kernel, Nat.le_antisymm bound used⟩

end Run
end Inlay
