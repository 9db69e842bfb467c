import Inlay.Proofs.Session.Operations

set_option autoImplicit false

namespace Inlay

open Text Markup

/-- A document that claims by an import. -/
structure Claim where
  document : Text
  reference : Import
  deriving DecidableEq

namespace Attempt

def passes (attempt : Attempt) : Bool :=
  match attempt.outcome with
  | .ok _ => true
  | .error _ => false

def claim (attempt : Attempt) : Claim :=
  ⟨attempt.document, attempt.reference⟩

def refusal? (attempt : Attempt) : Option Failure :=
  match attempt.outcome with
  | .ok _ => none
  | .error failure => some failure

variable {attempt : Attempt}

theorem outcome_of_recorded {original : Usage}
    (recorded : attempt.ledger.get? attempt.path = some original) :
    attempt.outcome = .error (.reused (shownPath attempt.reference.blockPath attempt.path)
      attempt.usage original attempt.ledger.entries) :=
  Ledger.grant_of_recorded recorded

theorem passes_iff : attempt.passes = true ↔ attempt.path ∉ attempt.ledger.paths := by
  cases outcome : attempt.outcome with
  | ok ledger => simp [passes, outcome, (Ledger.entries_of_grant outcome).1]
  | error failure =>
    obtain ⟨original, recorded, -⟩ := Ledger.recorded_of_grant outcome
    have found : ¬ attempt.path ∉ attempt.ledger.paths := by
      rw [← Ledger.get?_eq_none_iff, recorded]
      nofun
    simp only [passes, outcome, found, Bool.false_eq_true]

end Attempt

-- The imports whose claims passed.
def granted (attempts : List Attempt) : List Import :=
  (attempts.filter (·.passes)).map (·.reference)

-- What attempts put on record.
def records (attempts : List Attempt) : List (Text × Usage) :=
  (attempts.filter (·.passes)).map fun attempt => (attempt.path, attempt.usage)

def refusals (attempts : List Attempt) : List Failure :=
  attempts.filterMap (·.refusal?)

section Lists

variable (attempts others : List Attempt)

@[simp] theorem granted_nil : granted [] = [] := rfl

@[simp] theorem records_nil : records [] = [] := rfl

@[simp] theorem refusals_nil : refusals [] = [] := rfl

@[simp] theorem granted_append :
    granted (attempts ++ others) = granted attempts ++ granted others := by
  simp [granted]

@[simp] theorem records_append :
    records (attempts ++ others) = records attempts ++ records others := by
  simp [records]

@[simp] theorem refusals_append :
    refusals (attempts ++ others) = refusals attempts ++ refusals others := by
  simp [refusals]

theorem records_cons_of_passes {attempt : Attempt} (passes : attempt.passes = true) :
    records (attempt :: attempts) = (attempt.path, attempt.usage) :: records attempts := by
  simp [records, passes]

theorem paths_records : (records attempts).map Prod.fst = (granted attempts).map (·.path) := by
  simp [records, granted, Attempt.path]

end Lists

namespace Session

-- The attempts that were made while a session went on to another one.
def attemptsSince (start session : Session) : List Attempt :=
  session.attempts.drop start.attempts.length

end Session

namespace Job

def isFailed : Job → Bool
  | finished (.error _) => true
  | _ => false

-- The imports that a job still has to claim.
def pending : Job → List Import
  | ready _ references => references
  | waiting _ _ _ references => references
  | finished _ => []

def refusals : Job → List Failure
  | finished (.error failure) => [failure].filter Failure.isReuse
  | _ => []

theorem pending_of_isFailed {job : Job} (failed : job.isFailed = true) : job.pending = [] := by
  cases job with
  | finished result => rfl
  | ready text references => cases failed
  | waiting pauses current reference references => cases failed

end Job

namespace Session

/-- Each attempt sees the records of those before it. -/
structure Traced (before : Session) (attempts : List Attempt) (after : Session) : Prop where
  settings : after.settings = before.settings
  made : after.attempts = before.attempts ++ attempts
  entries : after.ledger.entries = before.ledger.entries ++ records attempts
  seen : ∀ earlier attempt later, attempts = earlier ++ attempt :: later →
    attempt.ledger.entries = before.ledger.entries ++ records earlier

variable {before middle after session next : Session} {attempts others : List Attempt}
variable {document path written : Text} {reference : Import} {references : List Import}
variable {reader : Reader} {failure : Failure} {job : Job}

theorem Traced.attemptsSince_eq (traced : Traced before attempts after) :
    before.attemptsSince after = attempts := by
  rw [attemptsSince, traced.made, List.drop_left]

theorem Keeps.traced (kept : before.Keeps after) : Traced before [] after where
  settings := kept.settings
  made := by rw [kept.attempts, List.append_nil]
  entries := by rw [kept.ledger, records_nil, List.append_nil]
  seen := by simp

theorem Traced.append (early : Traced before attempts middle) (late : Traced middle others after) :
    Traced before (attempts ++ others) after where
  settings := late.settings.trans early.settings
  made := by rw [late.made, early.made, List.append_assoc]
  entries := by rw [late.entries, early.entries, records_append, List.append_assoc]
  seen := by
    intro earlier attempt later split
    -- The attempt is one of the later ones, the first of them, or one of the earlier ones.
    rcases List.append_eq_append_iff.1 split with ⟨gap, rfl, rest⟩ | ⟨gap, whole, rest⟩
    next => rw [late.seen gap attempt later rest, early.entries, records_append, List.append_assoc]
    next =>
      cases gap with
      | nil =>
        rw [List.append_nil] at whole
        subst whole
        rw [late.seen [] attempt later rest.symm, early.entries, records_nil, List.append_nil]
      | cons first gap =>
        obtain ⟨rfl, -⟩ := List.cons.inj rest
        exact early.seen earlier attempt gap whole

theorem Attempted.traced (attempted : Attempted document reference before after)
    (entries : after.ledger.entries =
      before.ledger.entries ++ records [⟨document, reference, before.ledger⟩]) :
    Traced before [⟨document, reference, before.ledger⟩] after where
  settings := attempted.settings
  made := attempted.attempts
  entries := entries
  seen := by
    intro earlier other later split
    cases earlier with
    | nil =>
      obtain ⟨rfl, -⟩ := List.cons.inj split
      rw [records_nil, List.append_nil]
    | cons first earlier => simp at split

theorem Claimed.passes (claimed : Claimed document reference before after) :
    Attempt.passes ⟨document, reference, before.ledger⟩ = true :=
  Attempt.passes_iff.2 claimed.fresh

theorem Claimed.traced (claimed : Claimed document reference before after) :
    Traced before [⟨document, reference, before.ledger⟩] after := by
  apply claimed.toAttempted.traced
  rw [claimed.entries, records_cons_of_passes [] claimed.passes]
  rfl

theorem Declined.outcome (declined : Declined document reference before after failure) :
    Attempt.outcome ⟨document, reference, before.ledger⟩ = .error failure := by
  obtain ⟨earlier, recorded, rfl⟩ := declined.recorded
  exact Attempt.outcome_of_recorded recorded

theorem Declined.traced (declined : Declined document reference before after failure) :
    Traced before [⟨document, reference, before.ledger⟩] after := by
  apply declined.toAttempted.traced
  simp [records, Attempt.passes, declined.outcome, declined.ledger]

/-- The claimed imports and those that are left are all of them, unless the job failed. -/
structure Worked (document : Text) (references : List Import) (before : Session)
    (attempts : List Attempt) (after : Session) (job : Job) : Prop where
  traced : Traced before attempts after
  refused : job.refusals = refusals attempts
  covers : job.isFailed = true ∨ references = granted attempts ++ job.pending
  inOrder : attempts.map (·.claim) ++ job.pending.map (Claim.mk document) <+:
    references.map (Claim.mk document)

theorem Worked.of_keeps (kept : before.Keeps after) (quiet : job.refusals = [])
    (covers : job.isFailed = true ∨ references = job.pending) :
    Worked document references before [] after job where
  traced := kept.traced
  refused := quiet
  covers := covers
  inOrder := by
    rcases covers with failed | rfl
    next => simp [Job.pending_of_isFailed failed]
    next => exact List.prefix_refl _

theorem Worked.of_failed (kept : before.Keeps after) (other : failure.isReuse = false) :
    Worked document references before [] after (.finished (.error failure)) := by
  apply Worked.of_keeps kept _ (.inl rfl)
  simp [Job.refusals, other]

theorem Worked.of_declined (declined : Declined document reference session next failure) :
    Worked document (reference :: references) session [⟨document, reference, session.ledger⟩] next
      (.finished (.error failure)) := by
  constructor
  case traced => exact declined.traced
  case refused =>
    have outcome := declined.outcome
    obtain ⟨earlier, -, rfl⟩ := declined.recorded
    simp [Job.refusals, Failure.isReuse, refusals, Attempt.refusal?, outcome]
  case covers => exact .inl rfl
  case inOrder => simp [Job.pending, Attempt.claim]

theorem Worked.of_claimed (claimed : Claimed document reference session next)
    (later : Worked document references next attempts after job) :
    Worked document (reference :: references) session
      (⟨document, reference, session.ledger⟩ :: attempts) after job := by
  have passes := claimed.passes
  constructor
  case traced => exact claimed.traced.append later.traced
  case refused =>
    have silent : Attempt.refusal? ⟨document, reference, session.ledger⟩ = none := by
      cases outcome : Attempt.outcome ⟨document, reference, session.ledger⟩ with
      | ok ledger => simp [Attempt.refusal?, outcome]
      | error failure => simp [Attempt.passes, outcome] at passes
    rw [later.refused]
    simp [refusals, silent]
  case covers =>
    apply later.covers.imp_right
    intro whole
    simp [whole, granted, passes]
  case inOrder => exact (List.prefix_cons_inj (Claim.mk document reference)).2 later.inOrder

theorem Worked.after_keeps (kept : before.Keeps middle)
    (later : Worked document references middle attempts after job) :
    Worked document references before attempts after job :=
  ⟨kept.traced.append later.traced, later.refused, later.covers, later.inOrder⟩

-- Imports that are applied are claimed one after the other, up to a failure or a suspension.
def WorksFrom (reader : Reader) (document : Text) (references : List Import) : Prop :=
  ∀ session current, ∃ attempts, Worked document references session attempts
    (session.advance reader document current references).1
    (session.advance reader document current references).2

section Onward

variable (onward : WorksFrom reader document references) (session : Session) (current : Text)
variable (reference : Import)

include onward

theorem WorksFrom.proceed (block : Block) :
    let outcome := session.proceed reader document current reference references block
    ∃ attempts, Worked document references session attempts outcome.1 outcome.2 := by
  unfold Session.proceed
  cases woven : session.merge document current reference block with
  | mk next result =>
  cases result with
  | error failure => exact ⟨[], .of_failed (keeps_merge woven) (isReuse_of_merge woven)⟩
  | ok merged =>
    obtain ⟨attempts, worked⟩ := onward next merged
    exact ⟨attempts, worked.after_keeps (keeps_merge woven)⟩

theorem WorksFrom.resume :
    let outcome := session.resume reader document current reference references
    ∃ attempts, Worked document references session attempts outcome.1 outcome.2 := by
  rw [resume_eq]
  cases taken : session.receiveBlock reference.path reference.blockPath
      (reader.read reference.path) with
  | mk next result =>
  cases result with
  | error failure =>
    exact ⟨[], .of_failed (keeps_receiveBlock taken) (isReuse_of_receiveBlock taken)⟩
  | ok block =>
    obtain ⟨attempts, worked⟩ := onward.proceed next current reference block
    exact ⟨attempts, worked.after_keeps (keeps_receiveBlock taken)⟩

theorem WorksFrom.serve :
    let outcome := session.serve reader document current reference references
    ∃ attempts, Worked document references session attempts outcome.1 outcome.2 := by
  unfold Session.serve
  cases taken : session.storedBlock reference.path with
  | mk next found =>
  have kept := keeps_storedBlock taken
  cases found with
  | some block =>
    obtain ⟨attempts, worked⟩ := onward.proceed next current reference block
    exact ⟨attempts, worked.after_keeps kept⟩
  | none =>
    dsimp only
    cases reader.pauses reference.path with
    | succ pauses => exact ⟨[], .of_keeps kept rfl (.inr rfl)⟩
    | zero =>
      obtain ⟨attempts, worked⟩ := onward.resume next current reference
      exact ⟨attempts, worked.after_keeps kept⟩

end Onward

theorem worked_advance (reader : Reader) (document : Text) (references : List Import) :
    WorksFrom reader document references := by
  induction references with
  | nil => exact fun session current => ⟨[], .of_keeps (.refl session) rfl (.inr rfl)⟩
  | cons reference references onward =>
    intro session current
    rw [advance_cons]
    cases claimed : session.claimImport document reference with
    | mk next result =>
    cases result with
    | error failure => exact ⟨_, .of_declined (declined_of_claimImport claimed)⟩
    | ok done =>
      obtain ⟨attempts, worked⟩ := onward.serve next current reference
      exact ⟨_, .of_claimed (claimed_of_claimImport claimed) worked⟩

structure Turned (document : Text) (before : Session) (job : Job) (attempts : List Attempt)
    (after : Session) (next : Job) : Prop where
  traced : Traced before attempts after
  refused : next.refusals = job.refusals ++ refusals attempts
  covers : next.isFailed = true ∨
    job.isFailed = false ∧ job.pending = granted attempts ++ next.pending
  inOrder : attempts.map (·.claim) ++ next.pending.map (Claim.mk document) <+:
    job.pending.map (Claim.mk document)

theorem Turned.of_singleton {attempt : Attempt} {next : Job}
    (turned : Turned document before job [attempt] after next) :
    (∃ left, job.pending = attempt.reference :: left) ∧ attempt.document = document := by
  have inOrder := turned.inOrder
  cases pending : job.pending with
  | nil => simp [pending] at inOrder
  | cons reference left =>
    rw [pending] at inOrder
    simp only [List.map_cons, List.map_nil, List.singleton_append, List.cons_prefix_cons,
      Attempt.claim, Claim.mk.injEq] at inOrder
    exact ⟨⟨left, by rw [inOrder.1.2]⟩, inOrder.1.1⟩

theorem Worked.turned {next : Job} (worked : Worked document references before attempts after next)
    (quiet : job.refusals = []) (running : job.isFailed = false)
    (pending : job.pending = references) :
    Turned document before job attempts after next where
  traced := worked.traced
  refused := by rw [quiet, List.nil_append, worked.refused]
  covers := worked.covers.imp_right fun whole => ⟨running, pending.trans whole⟩
  inOrder := by rw [pending]; exact worked.inOrder

theorem turned_turn (reader : Reader) (document : Text) (session : Session) (job : Job) :
    let outcome := session.turn reader document job
    ∃ attempts, Turned document session job attempts outcome.1 outcome.2 := by
  match job with
  | .ready text [] =>
    have kept : session.Keeps (session.note (.untouched document)) := ⟨rfl, rfl, rfl⟩
    have untouched : Worked document [] session [] _ (.finished (.ok none)) :=
      .of_keeps kept rfl (.inr rfl)
    exact ⟨[], untouched.turned rfl rfl rfl⟩
  | .ready text (reference :: references) =>
    obtain ⟨attempts, worked⟩ :=
      worked_advance reader document (reference :: references) session text
    exact ⟨attempts, worked.turned rfl rfl rfl⟩
  | .waiting (pauses + 1) current reference references =>
    have waiting : Worked document references session [] session
        (.waiting pauses current reference references) := .of_keeps (.refl session) rfl (.inr rfl)
    exact ⟨[], waiting.turned rfl rfl rfl⟩
  | .waiting 0 current reference references =>
    obtain ⟨attempts, worked⟩ :=
      (worked_advance reader document references).resume session current reference
    exact ⟨attempts, worked.turned rfl rfl rfl⟩
  | .finished result =>
    refine ⟨[], ?_⟩
    constructor
    case traced => exact (Keeps.refl session).traced
    case refused => exact (List.append_nil _).symm
    -- A job that has failed stays failed, one that has succeeded has nothing left to claim.
    case covers => cases result <;> simp [turn, Job.isFailed, Job.pending]
    case inOrder => exact List.prefix_refl _

theorem settings_turn (reader : Reader) (document : Text) (session : Session) (job : Job) :
    (session.turn reader document job).1.settings = session.settings := by
  obtain ⟨attempts, turned⟩ := turned_turn reader document session job
  exact turned.traced.settings

end Session
end Inlay
