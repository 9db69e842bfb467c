import Inlay.Proofs.Session.SingleUse

set_option autoImplicit false

namespace Inlay

open Text Markup

def Session.StoresRecorded (session : Session) : Prop :=
  ∀ path, path ∉ session.ledger.paths → session.store.entry path = (none, none)

def Job.IsDue (session : Session) : Job → Prop
  | waiting pauses _ reference _ => pauses = 0 ∧ reference.path ∈ session.ledger.paths
  | _ => True

theorem Job.IsDue.mono {job : Job} {session next : Session} (due : job.IsDue session)
    (grows : session.ledger.paths ⊆ next.ledger.paths) : job.IsDue next := by
  cases job with
  | waiting => exact due.imp_right (grows ·)
  | ready => exact due
  | finished => exact due

namespace Session

structure Paced (references : List Import) (before after : Session) (next : Job) : Prop where
  stores : after.StoresRecorded
  due : next.IsDue after
  single : after.attempts.length ≤ before.attempts.length + 1
  left : next.isFinished = true ∨ next.pending = references.drop 1

variable {session next after : Session} {reader : Reader} {path written document current : Text}
variable {reference : Import} {references : List Import} {job : Job} {attempts : List Attempt}

theorem Traced.paths_subset (traced : Traced session attempts next) :
    session.ledger.paths ⊆ next.ledger.paths :=
  List.map_subset _ traced.grows.subset

namespace StoresRecorded

theorem of_same (stores : session.StoresRecorded) (ledger : next.ledger = session.ledger)
    (store : next.store = session.store) : next.StoresRecorded := by
  rw [StoresRecorded, ledger, store]
  exact stores

theorem receiveBlock {answer : Except FileFault Text} {result : Except Failure Block}
    (stores : session.StoresRecorded) (recorded : path ∈ session.ledger.paths)
    (taken : session.receiveBlock path written answer = (next, result)) : next.StoresRecorded := by
  intro other fresh
  rw [(keeps_receiveBlock taken).ledger] at fresh
  have apart : other ≠ path := fun same => fresh (same ▸ recorded)
  have kept : (session.receiveBlock path written answer).1.store.entry other =
      session.store.entry other := entry_receiveBlock answer apart
  rw [taken] at kept
  exact kept.trans (stores other fresh)

theorem merge {block : Block} {result : Except Failure Text} (stores : session.StoresRecorded)
    (merged : session.merge document current reference block = (next, result)) :
    next.StoresRecorded := by
  obtain ⟨journal, -, same⟩ := merge_fst session document current reference block
  rw [merged] at same
  cases same
  exact stores.of_same rfl rfl

end StoresRecorded

theorem single_of_keeps (kept : session.Keeps next) :
    next.attempts.length ≤ session.attempts.length + 1 := by
  rw [kept.attempts]
  exact Nat.le_succ _

theorem Attempted.length_eq (attempted : Attempted document reference session next) :
    next.attempts.length = session.attempts.length + 1 := by
  rw [attempted.attempts, List.length_append, List.length_singleton]

-- The block of a claim that passes is not stored, so its read suspends the job.
theorem paced_advance (once : ∀ path, reader.pauses path = 1) (stores : session.StoresRecorded)
    (document current : Text) (references : List Import) :
    let outcome := session.advance reader document current references
    Paced references session outcome.1 outcome.2 := by
  cases references with
  | nil => exact ⟨stores, trivial, Nat.le_succ _, .inl rfl⟩
  | cons reference references =>
    rw [advance_cons]
    cases taken : session.claimImport document reference with
    | mk next result =>
    cases result with
    | error failure =>
      have declined := declined_of_claimImport taken
      exact ⟨stores.of_same declined.ledger declined.store, trivial, Nat.le_of_eq declined.length_eq,
        .inl rfl⟩
    | ok done =>
      have claimed := claimed_of_claimImport taken
      have unknown : next.store.knows reference.path = false := by
        rw [Store.knows_eq_false_iff, claimed.store]
        exact Prod.mk.inj (stores _ claimed.fresh)
      have recorded : next.ledger.paths = session.ledger.paths ++ [reference.path] := by
        rw [Ledger.paths, claimed.entries, List.map_append]
        rfl
      simp only [serve, storedBlock_of_unknown unknown, once]
      refine ⟨?_, ⟨rfl, ?_⟩, Nat.le_of_eq claimed.length_eq, .inr rfl⟩
      next =>
        intro path fresh
        have fresh' : path ∉ session.ledger.paths := by
          intro member
          exact fresh (recorded ▸ List.mem_append_left _ member)
        exact (congrArg (·.entry path) claimed.store).trans (stores path fresh')
      next => exact recorded ▸ List.mem_append_right _ (List.mem_singleton_self _)

theorem paced_resume (once : ∀ path, reader.pauses path = 1) (stores : session.StoresRecorded)
    (recorded : reference.path ∈ session.ledger.paths) (document current : Text)
    (references : List Import) :
    let outcome := session.resume reader document current reference references
    Paced references session outcome.1 outcome.2 := by
  unfold resume
  cases taken : session.receiveBlock reference.path reference.blockPath
      (reader.read reference.path) with
  | mk middle result =>
  have stores := stores.receiveBlock recorded taken
  have kept := keeps_receiveBlock taken
  cases result with
  | error failure => exact ⟨stores, trivial, single_of_keeps kept, .inl rfl⟩
  | ok block =>
    dsimp only
    cases woven : middle.merge document current reference block with
    | mk after result =>
    have stores := stores.merge woven
    have kept := kept.trans (keeps_merge woven)
    cases result with
    | error failure => exact ⟨stores, trivial, single_of_keeps kept, .inl rfl⟩
    | ok merged =>
      obtain ⟨stores, due, single, left⟩ := paced_advance once stores document merged references
      exact ⟨stores, due, kept.attempts ▸ single, left⟩

theorem paced_turn (once : ∀ path, reader.pauses path = 1) (stores : session.StoresRecorded)
    (document : Text) (due : job.IsDue session) :
    let outcome := session.turn reader document job
    Paced job.pending session outcome.1 outcome.2 := by
  match job with
  | .ready text [] =>
    have untouched : (session.note (.untouched document)).StoresRecorded := stores.of_same rfl rfl
    exact ⟨untouched, trivial, Nat.le_succ _, .inl rfl⟩
  | .ready text (reference :: references) =>
    exact paced_advance once stores document text (reference :: references)
  | .waiting 0 current reference references =>
    exact paced_resume once stores due.2 document current references
  | .waiting (pauses + 1) current reference references => cases due.1
  | .finished result => exact ⟨stores, trivial, Nat.le_succ _, .inl rfl⟩

end Session
end Inlay
