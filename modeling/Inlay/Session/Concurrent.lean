import Inlay.Session.Basic

set_option autoImplicit false

namespace Inlay

open Text Markup

inductive Job
  | ready (text : Text) (references : List Import)
  | waiting (pauses : Nat) (current : Text) (reference : Import) (references : List Import)
  | finished (result : Except Failure (Option Text))

namespace Job

def isFinished : Job → Bool
  | finished _ => true
  | _ => false

def result? : Job → Option (Except Failure (Option Text))
  | finished result => some result
  | _ => none

end Job

namespace Session

def advance (reader : Reader) (document : Text) :
    Session → Text → List Import → Session × Job
  | session, current, [] => (session, .finished (.ok (some current)))
  | session, current, reference :: references =>
    match session.claimImport document reference with
    | (session, .error failure) => (session, .finished (.error failure))
    | (session, .ok ()) =>
      match session.storedBlock reference.path with
      | (session, some block) =>
        match session.merge document current reference block with
        | (session, .error failure) => (session, .finished (.error failure))
        | (session, .ok merged) => advance reader document session merged references
      | (session, none) =>
        match reader.pauses reference.path with
        | pauses + 1 => (session, .waiting pauses current reference references)
        | 0 =>
          match session.receiveBlock reference.path reference.blockPath
              (reader.read reference.path) with
          | (session, .error failure) => (session, .finished (.error failure))
          | (session, .ok block) =>
            match session.merge document current reference block with
            | (session, .error failure) => (session, .finished (.error failure))
            | (session, .ok merged) => advance reader document session merged references

def resume (reader : Reader) (document : Text) (session : Session) (current : Text)
    (reference : Import) (references : List Import) : Session × Job :=
  match session.receiveBlock reference.path reference.blockPath (reader.read reference.path) with
  | (session, .error failure) => (session, .finished (.error failure))
  | (session, .ok block) =>
    match session.merge document current reference block with
    | (session, .error failure) => (session, .finished (.error failure))
    | (session, .ok merged) => session.advance reader document merged references

def turn (reader : Reader) (document : Text) (session : Session) : Job → Session × Job
  | .ready _ [] => (session.note (.untouched document), .finished (.ok none))
  | .ready text (reference :: references) =>
    session.advance reader document text (reference :: references)
  | .waiting (pauses + 1) current reference references =>
    (session, .waiting pauses current reference references)
  | .waiting 0 current reference references =>
    session.resume reader document current reference references
  | .finished result => (session, .finished result)

end Session

def turnsFor (pauses : Text → Nat) : List Import → Nat
  | [] => 0
  | reference :: references => pauses reference.path + 1 + turnsFor pauses references

def Job.turnsLeft (pauses : Text → Nat) : Job → Nat
  | ready _ references => turnsFor pauses references + 1
  | waiting more _ _ references => more + 1 + turnsFor pauses references
  | finished _ => 0

namespace Session

theorem turnsLeft_advance (reader : Reader) (document : Text) (session : Session) (current : Text)
    (references : List Import) :
    (session.advance reader document current references).2.turnsLeft reader.pauses
      <= turnsFor reader.pauses references := by
  fun_induction advance reader document session current references with
  | case1 => simp [Job.turnsLeft]
  | case2 => simp [Job.turnsLeft]
  | case3 => simp [Job.turnsLeft]
  | case4 => simp_all [turnsFor]; omega
  | case5 => simp_all [Job.turnsLeft, turnsFor]
  | case6 => simp [Job.turnsLeft]
  | case7 => simp [Job.turnsLeft]
  | case8 => simp_all [turnsFor]; omega

theorem turnsLeft_resume (reader : Reader) (document : Text) (session : Session) (current : Text)
    (reference : Import) (references : List Import) :
    (session.resume reader document current reference references).2.turnsLeft reader.pauses
      <= turnsFor reader.pauses references := by
  unfold resume
  split
  next => simp [Job.turnsLeft]
  next =>
    split
    next => simp [Job.turnsLeft]
    next => exact turnsLeft_advance ..

theorem turnsLeft_turn (reader : Reader) (document : Text) (session : Session) (job : Job) :
    (session.turn reader document job).2.turnsLeft reader.pauses
      <= job.turnsLeft reader.pauses - 1 := by
  match job with
  | .ready _ [] => simp [turn, Job.turnsLeft]
  | .ready text (reference :: references) =>
    exact turnsLeft_advance reader document session text (reference :: references)
  | .waiting (pauses + 1) _ _ _ => simp only [turn, Job.turnsLeft]; omega
  | .waiting 0 current reference references =>
    have := turnsLeft_resume reader document session current reference references
    have least : (Job.waiting 0 current reference references).turnsLeft reader.pauses - 1
        = turnsFor reader.pauses references := by simp [Job.turnsLeft]
    rw [least]
    exact this
  | .finished _ => simp [turn, Job.turnsLeft]

end Session

structure Task where
  document : Text
  job : Job

def Task.ofText (suffix document text : Text) : Task :=
  ⟨document, .ready text (Import.scan suffix document text)⟩

def turnsLeft (pauses : Text → Nat) : List Task → Nat
  | [] => 0
  | task :: tasks => task.job.turnsLeft pauses + turnsLeft pauses tasks

namespace Session

def round (reader : Reader) : Session → List Task → Session × List Task
  | session, [] => (session, [])
  | session, task :: tasks =>
    let (session, job) := session.turn reader task.document task.job
    let (session, tasks) := session.round reader tasks
    (session, ⟨task.document, job⟩ :: tasks)

theorem turnsLeft_round (reader : Reader) (session : Session) (tasks : List Task) :
    turnsLeft reader.pauses (session.round reader tasks).2
      <= turnsLeft reader.pauses tasks - 1 := by
  induction tasks generalizing session with
  | nil => simp [round, Inlay.turnsLeft]
  | cons task tasks ih =>
    have here := turnsLeft_turn reader task.document session task.job
    have there := ih (session.turn reader task.document task.job).1
    simp only [round, Inlay.turnsLeft] at there ⊢
    omega

/-- Rounds until every task has finished. -/
def settle (reader : Reader) (session : Session) (tasks : List Task) : Session × List Task :=
  if turnsLeft reader.pauses tasks = 0 then (session, tasks)
  else
    settle reader (session.round reader tasks).1 (session.round reader tasks).2
termination_by turnsLeft reader.pauses tasks
decreasing_by
  have := turnsLeft_round reader session tasks
  omega

def transformAll (reader : Reader) (session : Session) (documents : List (Text × Text)) :
    Session × List (Except Failure (Option Text)) :=
  let tasks := documents.map fun (document, text) =>
    Task.ofText session.settings.blockSuffix document text
  let (session, tasks) := session.settle reader tasks
  (session, tasks.filterMap fun task => task.job.result?)

end Session
end Inlay
