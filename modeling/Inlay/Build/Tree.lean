import Inlay.Build.Discovery
import Inlay.Failure
import Inlay.Session.Concurrent

set_option autoImplicit false

namespace Inlay

open Text

structure Report where
  transformed : List Text := []
  unchanged : List Text := []
  failed : List (Text × Payload) := []

namespace Report

def ok (report : Report) : Bool :=
  report.failed.isEmpty

def fieldsOf (transformed unchanged : List Text) (failed : List (Text × Json)) :
    List (Text × Json) :=
  [("ok", .bool failed.isEmpty), ("transformed", .list ((sort transformed).map Json.text)),
   ("unchanged", .list ((sort unchanged).map Json.text)), ("failed", .object failed)]

def fields (report : Report) : List (Text × Json) :=
  fieldsOf report.transformed report.unchanged
    (report.failed.map fun (document, payload) => (document, .object payload.fields))

def failures (report : Report) : List (Text × Text) :=
  (report.failed.map fun (document, payload) => (document, payload.message)).mergeSort
    fun a b => Text.le a.1 b.1

end Report

def Workspace.reader (workspace : Workspace) (encoding : Text) : Reader where
  read path := workspace.readText encoding path path
  pauses := workspace.machine.pauses

inductive BuildFault
  | pattern (suffix : Text)
  | file (fault : FileFault)
  deriving Repr, DecidableEq

structure Build where
  source : Text
  output : Text
  workspace : Workspace
  session : Session
  report : Report := {}
  fault? : Option FileFault := none

structure OpenDocument where
  document : Document
  text : Text
  job : Job

namespace Build

def encoding (build : Build) : Text :=
  build.session.settings.encoding

def reader (build : Build) : Reader :=
  build.workspace.reader build.encoding

def note (build : Build) (event : Event) : Build :=
  { build with session := build.session.note event }

def sourcePath (build : Build) (document : Document) : Text :=
  Path.joinTexts build.source document.relative

def identity (build : Build) (document : Document) : Text :=
  Path.actual (build.sourcePath document)

def targetPath (build : Build) (document : Document) : Text :=
  Path.joinTexts build.output document.relative

def fail (build : Build) (document : Document) (payload : Payload) : Build :=
  let report :=
    { build.report with failed := build.report.failed ++ [(document.relative, payload)] }
  { build with report }.note (.failed document.relative payload.message)

/-- The first fault counts. -/
def stop (build : Build) (fault : FileFault) : Build :=
  { build with fault? := build.fault?.or (some fault) }

def isReported (fault : FileFault) : Bool :=
  match fault with
  | .undecodable _ => true
  | fault => fault.isSystem

def write (build : Build) (document : Document) (text : Text) : Build × Except FileFault Unit :=
  let target := build.targetPath document
  match build.workspace.makeDirectories (Path.directory target) with
  | .error fault => (build, .error fault)
  | .ok workspace =>
    let (workspace, written) := workspace.writeText build.encoding target text
    ({ build with workspace }, written)

def conclude (build : Build) (document : Document) (text : Text) :
    Except Failure (Option Text) → Build
  | .error failure => build.fail document failure.payload
  | .ok none =>
    match build.write document text with
    | (build, .error fault) => build.stop fault
    | (build, .ok ()) =>
      let report := { build.report with unchanged := build.report.unchanged ++ [document.relative] }
      { build with report }
  | .ok (some code) =>
    match build.write document code with
    | (build, .error fault) => build.stop fault
    | (build, .ok ()) =>
      let report :=
        { build.report with transformed := build.report.transformed ++ [document.relative] }
      { build with report }.note (.transformed document.relative)

def turn (build : Build) (task : OpenDocument) : Build × Option OpenDocument :=
  let (session, job) :=
    build.session.turn build.reader (build.identity task.document) task.job
  let build := { build with session }
  match job with
  | .finished result => (build.conclude task.document task.text result, none)
  | job => (build, some { task with job })

def start (build : Build) (document : Document) : Build × Option OpenDocument :=
  let path := build.sourcePath document
  match build.workspace.readText build.encoding path path with
  | .ok text =>
    let id := build.identity document
    let job :=
      if build.session.accepts id then (Task.ofText build.session.settings.blockSuffix id text).job
      else .finished (.ok none)
    build.turn ⟨document, text, job⟩
  | .error fault =>
    if isReported fault then (build.fail document ⟨fault.message, fault.code, []⟩, none)
    else (build.stop fault, none)

def startAll (build : Build) : List Document → Build × List OpenDocument
  | [] => (build, [])
  | document :: documents =>
    let (build, task?) := build.start document
    let (build, tasks) := build.startAll documents
    (build, task?.toList ++ tasks)

def round (build : Build) : List OpenDocument → Build × List OpenDocument
  | [] => (build, [])
  | task :: tasks =>
    let (build, task?) := build.turn task
    let (build, tasks) := build.round tasks
    (build, task?.toList ++ tasks)

def turnsLeft (pauses : Text → Nat) : List OpenDocument → Nat
  | [] => 0
  | task :: tasks => task.job.turnsLeft pauses + turnsLeft pauses tasks

section Machine

variable {build : Build}

theorem machine_write (build : Build) (document : Document) (text : Text) :
    (build.write document text).1.workspace.machine = build.workspace.machine := by
  unfold write
  dsimp only
  split
  next => rfl
  next made =>
    exact (Workspace.machine_writeText ..).trans (Workspace.machine_of_makeDirectories made)

theorem machine_conclude (build : Build) (document : Document) (text : Text)
    (result : Except Failure (Option Text)) :
    (build.conclude document text result).workspace.machine = build.workspace.machine := by
  cases result with
  | error failure => rfl
  | ok code? =>
    have kept := machine_write build document (code?.getD text)
    cases code? <;> simp only [conclude, Option.getD_none, Option.getD_some] at kept ⊢ <;>
      split <;> simp_all [stop, note]

theorem machine_turn (build : Build) (task : OpenDocument) :
    (build.turn task).1.workspace.machine = build.workspace.machine := by
  unfold turn
  dsimp only
  split
  next => exact machine_conclude ..
  next => rfl

theorem turnsLeft_turn (build : Build) (task : OpenDocument) :
    turnsLeft build.workspace.machine.pauses (build.turn task).2.toList
      <= task.job.turnsLeft build.workspace.machine.pauses - 1 := by
  have bound :=
    Session.turnsLeft_turn build.reader (build.identity task.document) build.session task.job
  have pauses : build.reader.pauses = build.workspace.machine.pauses := rfl
  rw [pauses] at bound
  unfold turn
  cases taken : build.session.turn build.reader (build.identity task.document) task.job with
  | mk session job =>
    rw [taken] at bound
    cases job <;> simp_all [turnsLeft]

theorem turnsLeft_append (pauses : Text → Nat) (tasks more : List OpenDocument) :
    turnsLeft pauses (tasks ++ more) = turnsLeft pauses tasks + turnsLeft pauses more := by
  induction tasks with
  | nil => simp [turnsLeft]
  | cons task tasks ih => simp [turnsLeft, ih, Nat.add_assoc]

theorem machine_round (build : Build) (tasks : List OpenDocument) :
    (build.round tasks).1.workspace.machine = build.workspace.machine := by
  induction tasks generalizing build with
  | nil => rfl
  | cons task tasks ih => exact (ih (build.turn task).1).trans (machine_turn build task)

theorem turnsLeft_round (build : Build) (tasks : List OpenDocument) :
    turnsLeft build.workspace.machine.pauses (build.round tasks).2
      <= turnsLeft build.workspace.machine.pauses tasks - 1 := by
  induction tasks generalizing build with
  | nil => simp [round, turnsLeft]
  | cons task tasks ih =>
    have here := turnsLeft_turn build task
    have there := ih (build.turn task).1
    rw [machine_turn] at there
    have parts : turnsLeft build.workspace.machine.pauses (task :: tasks)
        = task.job.turnsLeft build.workspace.machine.pauses
          + turnsLeft build.workspace.machine.pauses tasks := by simp [turnsLeft]
    simp only [round, turnsLeft_append, parts]
    omega

end Machine

def rounds : Nat → Build → List OpenDocument → Build
  | 0, build, _ => build
  | n + 1, build, tasks => rounds n (build.round tasks).1 (build.round tasks).2

/-- How many rounds the other documents still have when a fault ends the build. -/
def roundsAfterFault : Nat := 3

def settle (build : Build) (tasks : List OpenDocument) : Build :=
  if build.fault?.isSome then rounds roundsAfterFault build tasks
  else if turnsLeft build.workspace.machine.pauses tasks = 0 then build
  else settle (build.round tasks).1 (build.round tasks).2
termination_by turnsLeft build.workspace.machine.pauses tasks
decreasing_by
  have := turnsLeft_round build tasks
  rw [machine_round]
  omega

def run (build : Build) (documents : List Document) : Build :=
  let (build, tasks) := build.startAll documents
  build.settle tasks

def outcome (build : Build) : Except BuildFault Report :=
  match build.fault? with
  | some fault => .error (.file fault)
  | none => .ok build.report

end Build

/-- Without a directory there are no documents, but whether there is one has to have an answer. -/
def buildTree (workspace : Workspace) (session : Session) (source output : Text) :
    Workspace × Session × Except BuildFault Report :=
  let session := session.reset
  match discover? workspace source session.settings.hostSuffix with
  | none => (workspace, session, .error (.pattern session.settings.hostSuffix))
  | some documents =>
    match workspace.hasDirectory source with
    | .error fault => (workspace, session, .error (.file fault))
    | .ok _ =>
      let build := Build.run { source, output, workspace, session } documents
      (build.workspace, build.session, build.outcome)

end Inlay
