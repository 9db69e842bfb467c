import Inlay.Build.Tree
import Inlay.Proofs.Workspace.Deposit

set_option autoImplicit false

namespace Inlay

open Text Workspace

structure Ending where
  document : Document
  text : Text
  outcome : Except Payload (Option Text)

namespace Ending

def write? (output : Text) (ending : Ending) : Option (Text × Text) :=
  match ending.outcome with
  | .error _ => none
  | .ok code? => some (Path.joinTexts output ending.document.relative, code?.getD ending.text)

end Ending

def writesOf (output : Text) (log : List Ending) : List (Text × Text) :=
  log.filterMap (Ending.write? output)

namespace Report

def add (report : Report) (ending : Ending) : Report :=
  match ending.outcome with
  | .error payload =>
    { report with failed := report.failed ++ [(ending.document.relative, payload)] }
  | .ok none => { report with unchanged := report.unchanged ++ [ending.document.relative] }
  | .ok (some _) => { report with transformed := report.transformed ++ [ending.document.relative] }

def ofLog (log : List Ending) : Report :=
  log.foldl add {}

variable {log : List Ending} {relative : Text} {payload : Payload}

theorem ofLog_snoc (log : List Ending) (ending : Ending) :
    ofLog (log ++ [ending]) = (ofLog log).add ending := by
  simp [ofLog]

theorem mem_transformed : relative ∈ (ofLog log).transformed ↔
    ∃ ending ∈ log, ending.document.relative = relative ∧
      ∃ code, ending.outcome = .ok (some code) := by
  induction log using List.reverseRecOn with
  | nil => simp [ofLog]
  | append_singleton log ending ih =>
    rw [ofLog_snoc, add]
    obtain ⟨document, text, _ | _ | code⟩ := ending <;> simp [ih, or_and_right, exists_or, eq_comm]

theorem mem_unchanged : relative ∈ (ofLog log).unchanged ↔
    ∃ ending ∈ log, ending.document.relative = relative ∧ ending.outcome = .ok none := by
  induction log using List.reverseRecOn with
  | nil => simp [ofLog]
  | append_singleton log ending ih =>
    rw [ofLog_snoc, add]
    obtain ⟨document, text, _ | _ | code⟩ := ending <;> simp [ih, or_and_right, exists_or, eq_comm]

theorem mem_failed : (relative, payload) ∈ (ofLog log).failed ↔
    ∃ ending ∈ log, ending.document.relative = relative ∧ ending.outcome = .error payload := by
  induction log using List.reverseRecOn with
  | nil => simp [ofLog]
  | append_singleton log ending ih =>
    rw [ofLog_snoc, add]
    obtain ⟨document, text, _ | _ | code⟩ := ending <;> simp [ih, or_and_right, exists_or, eq_comm]

def entries (report : Report) : List Text :=
  report.transformed ++ report.unchanged ++ report.failed.map Prod.fst

theorem entries_ofLog (log : List Ending) :
    (ofLog log).entries.Perm (log.map fun ending => ending.document.relative) := by
  induction log using List.reverseRecOn with
  | nil => exact .refl []
  | append_singleton log ending ih =>
    rw [List.perm_iff_count] at ih ⊢
    intro relative
    have count := ih relative
    rw [ofLog_snoc, add]
    obtain ⟨document, text, _ | _ | code⟩ := ending <;>
      simp only [entries, List.map_append, List.map_cons, List.map_nil, List.count_append]
        at count ⊢ <;>
      omega

theorem writesOf_paths (output : Text) (log : List Ending) :
    ((writesOf output log).map Prod.fst).Perm
      (((ofLog log).transformed ++ (ofLog log).unchanged).map (Path.joinTexts output)) := by
  induction log using List.reverseRecOn with
  | nil => exact .refl []
  | append_singleton log ending ih =>
    rw [List.perm_iff_count] at ih ⊢
    intro path
    have count := ih path
    rw [ofLog_snoc, add, writesOf, List.filterMap_append]
    rw [writesOf] at count
    obtain ⟨document, text, _ | _ | code⟩ := ending <;>
      simp only [Ending.write?, List.filterMap_cons, List.filterMap_nil, List.map_append,
        List.map_cons, List.map_nil, List.count_append, List.count_nil] at count ⊢ <;>
      omega

end Report

namespace Build

variable {build next start : Build} {document : Document} {documents pending : List Document}
variable {text : Text} {result : Except Failure (Option Text)} {task : OpenDocument}
variable {ending : Ending} {log : List Ending} {session : Session} {job : Job} {fault : FileFault}

structure Takes (ending : Ending) (build next : Build) : Prop where
  source : next.source = build.source
  output : next.output = build.output
  fault : next.fault? = build.fault?
  session : ∃ journal, next.session = { build.session with journal }
  report : next.report = build.report.add ending
  workspace : depositAll build.encoding build.workspace (ending.write? build.output).toList =
    .ok next.workspace

theorem takes_fail (build : Build) (document : Document) (payload : Payload) :
    Takes ⟨document, [], .error payload⟩ build (build.fail document payload) :=
  ⟨rfl, rfl, rfl, ⟨_, rfl⟩, rfl, rfl⟩

theorem depositAll_single {encoding path : Text} (workspace : Workspace) :
    depositAll encoding workspace [(path, text)] = workspace.deposit encoding path text := by
  simp [depositAll]

theorem write_of_deposit {workspace : Workspace}
    (wrote : build.workspace.deposit build.encoding (build.targetPath document) text =
      .ok workspace) : build.write document text = ({ build with workspace }, .ok ()) := by
  obtain ⟨made, directories, written⟩ := deposit_eq_ok_iff.1 wrote
  simp [write, directories, written]

theorem write_of_fault
    (failed : build.workspace.deposit build.encoding (build.targetPath document) text =
      .error fault) :
    ∃ workspace, build.write document text = ({ build with workspace }, .error fault) := by
  unfold deposit at failed
  unfold write
  cases directories : build.workspace.makeDirectories (Path.directory (build.targetPath document)) with
  | error cause =>
    rw [directories] at failed
    cases failed
    exact ⟨build.workspace, by simp [directories]⟩
  | ok made =>
    rw [directories] at failed
    cases written : made.writeText build.encoding (build.targetPath document) text with
    | mk workspace result =>
      cases result with
      | error cause =>
        simp only [written, Except.error.injEq] at failed
        exact ⟨workspace, by simp [directories, written, failed]⟩
      | ok => simp [written] at failed

def endingOf (document : Document) (text : Text) (result : Except Failure (Option Text)) : Ending :=
  ⟨document, text, result.mapError Failure.payload⟩

theorem fault_stop (build : Build) (fault : FileFault) : (build.stop fault).fault? ≠ none := by
  cases known : build.fault? <;> simp [stop, known]

-- A result is taken, unless its text cannot be written; that ends the build.
theorem conclude_cases (build : Build) (document : Document) (text : Text)
    (result : Except Failure (Option Text)) :
    Takes (endingOf document text result) build (build.conclude document text result) ∨
      ∃ code? workspace fault, result = .ok code? ∧
        build.workspace.deposit build.encoding (build.targetPath document) (code?.getD text) =
          .error fault ∧
        build.write document (code?.getD text) = ({ build with workspace }, .error fault) ∧
        build.conclude document text result = ({ build with workspace } : Build).stop fault := by
  match result with
  | .error failure => exact .inl ⟨rfl, rfl, rfl, ⟨_, rfl⟩, rfl, rfl⟩
  | .ok code? =>
    cases wrote : build.workspace.deposit build.encoding (build.targetPath document)
        (code?.getD text) with
    | ok workspace =>
      have written := write_of_deposit wrote
      have deposited := (depositAll_single _).trans wrote
      left
      cases code? with
      | none =>
        simp only [Option.getD_none] at written
        rw [conclude, written]
        exact ⟨rfl, rfl, rfl, ⟨_, rfl⟩, rfl, deposited⟩
      | some code =>
        simp only [Option.getD_some] at written
        rw [conclude, written]
        exact ⟨rfl, rfl, rfl, ⟨_, rfl⟩, rfl, deposited⟩
    | error fault =>
      obtain ⟨workspace, failed⟩ := write_of_fault wrote
      refine .inr ⟨code?, workspace, fault, rfl, wrote, failed, ?_⟩
      cases code? with
      | none =>
        simp only [Option.getD_none] at failed
        rw [conclude, failed]
      | some code =>
        simp only [Option.getD_some] at failed
        rw [conclude, failed]

theorem takes_conclude (build : Build) (document : Document) (text : Text)
    (result : Except Failure (Option Text)) :
    Takes (endingOf document text result) build (build.conclude document text result) ∨
      (∃ fault, depositAll build.encoding build.workspace
        ((endingOf document text result).write? build.output).toList = .error fault) ∧
      (build.conclude document text result).fault? ≠ none := by
  refine (conclude_cases build document text result).imp_right ?_
  rintro ⟨code?, workspace, fault, rfl, wrote, -, stopped⟩
  refine ⟨⟨fault, (depositAll_single _).trans wrote⟩, ?_⟩
  rw [stopped]
  exact fault_stop _ fault

def firstJob (build : Build) (document : Document) (text : Text) : Job :=
  if build.session.accepts (build.identity document) then
    (Task.ofText build.session.settings.blockSuffix (build.identity document) text).job
  else .finished (.ok none)

-- What a first turn does: the document's text is there and its job takes a turn, or the document
-- fails, or the build ends.
theorem start_cases (build : Build) (document : Document) :
    (∃ text, build.reader.read (build.sourcePath document) = .ok text ∧
      build.start document = build.turn ⟨document, text, build.firstJob document text⟩) ∨
    (∃ fault, build.reader.read (build.sourcePath document) = .error fault ∧
      isReported fault = true ∧
      build.start document = (build.fail document ⟨fault.message, fault.code, []⟩, none)) ∨
    ∃ fault, build.reader.read (build.sourcePath document) = .error fault ∧
      isReported fault = false ∧ build.start document = (build.stop fault, none) := by
  unfold start
  dsimp only [reader, Workspace.reader]
  cases build.workspace.readText build.encoding (build.sourcePath document)
      (build.sourcePath document) with
  | ok text => exact .inl ⟨text, rfl, rfl⟩
  | error fault =>
    cases reported : isReported fault with
    | true => exact .inr (.inl ⟨fault, rfl, reported, by simp [reported]⟩)
    | false => exact .inr (.inr ⟨fault, rfl, reported, by simp [reported]⟩)

-- What a turn does: the job waits, or the document ends with the job's result.
theorem turn_cases (build : Build) (task : OpenDocument) :
    let outcome := build.session.turn build.reader (build.identity task.document) task.job
    (outcome.2.isFinished = false ∧
      build.turn task = ({ build with session := outcome.1 }, some { task with job := outcome.2 })) ∨
    ∃ result, outcome.2 = .finished result ∧
      build.turn task =
        (({ build with session := outcome.1 } : Build).conclude task.document task.text result,
          none) := by
  intro outcome
  unfold turn
  cases taken : build.session.turn build.reader (build.identity task.document) task.job with
  | mk session job =>
    have same : outcome = (session, job) := taken
    rw [same]
    cases job with
    | finished result => exact .inr ⟨result, rfl, rfl⟩
    | ready => exact .inl ⟨rfl, rfl⟩
    | waiting => exact .inl ⟨rfl, rfl⟩

theorem fault_conclude (build : Build)
    (quiet : (build.conclude document text result).fault? = none) : build.fault? = none := by
  rcases takes_conclude build document text result with takes | ⟨-, faulty⟩
  next => rw [← takes.fault, quiet]
  next => exact absurd quiet faulty

-- A fault stays, so a build without one never had one.
theorem fault_turn (quiet : (build.turn task).1.fault? = none) : build.fault? = none := by
  rcases turn_cases build task with ⟨-, turned⟩ | ⟨result, -, turned⟩
  next =>
    rw [turned] at quiet
    exact quiet
  next =>
    rw [turned] at quiet
    have calm := fault_conclude _ quiet
    exact calm

theorem fault_start (quiet : (build.start document).1.fault? = none) : build.fault? = none := by
  rcases start_cases build document with ⟨text, -, begun⟩ | ⟨fault, -, -, begun⟩ | ⟨fault, -, -, begun⟩
  next =>
    rw [begun] at quiet
    exact fault_turn quiet
  next =>
    rw [begun] at quiet
    exact quiet
  next =>
    rw [begun] at quiet
    exact absurd quiet (fault_stop build fault)

section Induction

variable {Holds : Build → List OpenDocument → List Document → Prop} {opened : List OpenDocument}

-- Documents that are open have not finished.
theorem isFinished_turn {moved : OpenDocument} (member : moved ∈ (build.turn task).2.toList) :
    moved.job.isFinished = false := by
  rcases turn_cases build task with ⟨running, turned⟩ | ⟨result, -, turned⟩
  next =>
    rw [turned, Option.toList_some, List.mem_singleton] at member
    rwa [member]
  next => simp [turned] at member

theorem isFinished_start {moved : OpenDocument} (member : moved ∈ (build.start document).2.toList) :
    moved.job.isFinished = false := by
  rcases start_cases build document with ⟨text, -, begun⟩ | ⟨fault, -, -, begun⟩ | ⟨fault, -, -, begun⟩
  next =>
    rw [begun] at member
    exact isFinished_turn member
  next => simp [begun] at member
  next => simp [begun] at member

theorem isFinished_startAll : ∀ task ∈ (build.startAll documents).2, task.job.isFinished = false := by
  induction documents generalizing build with
  | nil => simp [startAll]
  | cons document documents ih =>
    intro task member
    rcases List.mem_append.1 member with here | later
    next => exact isFinished_start here
    next => exact ih task later

theorem startAll_induction
    (begins : ∀ build opened document rest, Holds build opened (document :: rest) →
      Holds (build.start document).1 (opened ++ (build.start document).2.toList) rest)
    (holds : Holds build opened documents) :
    Holds (build.startAll documents).1 (opened ++ (build.startAll documents).2) [] := by
  induction documents generalizing build opened with
  | nil => simpa [startAll] using holds
  | cons document documents ih =>
    have later := ih (begins build opened document documents holds)
    rw [List.append_assoc] at later
    exact later

theorem round_induction
    (turns : ∀ build before task after, Holds build (before ++ task :: after) [] →
      Holds (build.turn task).1 (before ++ ((build.turn task).2.toList ++ after)) [])
    (before : List OpenDocument) (holds : Holds build (before ++ opened) []) :
    Holds (build.round opened).1 (before ++ (build.round opened).2) [] := by
  induction opened generalizing build before with
  | nil => exact holds
  | cons task opened ih =>
    have turned := turns build before task opened holds
    rw [← List.append_assoc] at turned
    have later := ih _ turned
    rw [List.append_assoc] at later
    exact later

-- A build at rest: its open documents have not finished, and no others are to begin.
def Rests (Holds : Build → List OpenDocument → List Document → Prop) (build : Build) : Prop :=
  ∃ opened, Holds build opened [] ∧ ∀ task ∈ opened, task.job.isFinished = false

theorem turnsLeft_pos {job : Job} (running : job.isFinished = false) (pauses : Text → Nat) :
    0 < job.turnsLeft pauses := by
  cases job with
  | ready => simp [Job.turnsLeft]
  | waiting => simp only [Job.turnsLeft]; omega
  | finished => simp [Job.isFinished] at running

theorem isFinished_round {opened : List OpenDocument} {moved : OpenDocument}
    (member : moved ∈ (build.round opened).2) : moved.job.isFinished = false := by
  induction opened generalizing build with
  | nil => cases member
  | cons task opened ih =>
    rcases List.mem_append.1 member with here | later
    next => exact isFinished_turn here
    next => exact ih later

theorem rounds_induction
    (turns : ∀ build before task after, Holds build (before ++ task :: after) [] →
      Holds (build.turn task).1 (before ++ ((build.turn task).2.toList ++ after)) [])
    (n : Nat) (holds : Holds build opened [])
    (running : ∀ task ∈ opened, task.job.isFinished = false) :
    Rests Holds (rounds n build opened) := by
  induction n generalizing build opened with
  | zero => exact ⟨opened, holds, running⟩
  | succ n ih => exact ih (round_induction turns [] holds) fun _ => isFinished_round

theorem settle_induction
    (turns : ∀ build before task after, Holds build (before ++ task :: after) [] →
      Holds (build.turn task).1 (before ++ ((build.turn task).2.toList ++ after)) [])
    (holds : Holds build opened []) (running : ∀ task ∈ opened, task.job.isFinished = false) :
    Rests Holds (build.settle opened) ∧
      ((build.settle opened).fault? = none → Holds (build.settle opened) [] []) := by
  fun_induction settle build opened with
  | case1 build opened faulty =>
    refine ⟨rounds_induction turns _ holds running, fun quiet => ?_⟩
    obtain ⟨_, still, -⟩ : Rests (fun build _ _ => build.fault? ≠ none)
        (rounds roundsAfterFault build opened) :=
      rounds_induction (fun _ _ _ _ faulty quiet => faulty (fault_turn quiet)) _
        (Option.isSome_iff_ne_none.1 faulty) running
    exact absurd quiet still
  | case2 build opened calm ended =>
    refine ⟨⟨opened, holds, running⟩, fun _ => ?_⟩
    cases opened with
    | nil => exact holds
    | cons task opened =>
      have left := turnsLeft_pos (running task List.mem_cons_self) build.workspace.machine.pauses
      simp only [turnsLeft] at ended
      omega
  | case3 build opened calm moving ih =>
    exact ih (round_induction turns [] holds) fun _ => isFinished_round

theorem run_induction
    (begins : ∀ build opened document rest, Holds build opened (document :: rest) →
      Holds (build.start document).1 (opened ++ (build.start document).2.toList) rest)
    (turns : ∀ build before task after, Holds build (before ++ task :: after) [] →
      Holds (build.turn task).1 (before ++ ((build.turn task).2.toList ++ after)) [])
    (holds : Holds build [] documents) :
    Rests Holds (build.run documents) ∧
      ((build.run documents).fault? = none → Holds (build.run documents) [] []) := by
  have begun := startAll_induction begins holds
  rw [List.nil_append] at begun
  exact settle_induction turns begun isFinished_startAll

end Induction

theorem outcome_of_quiet (quiet : build.fault? = none) : build.outcome = .ok build.report := by
  rw [outcome, quiet]

section Evaluation

-- Whether a build has no open documents after a number of rounds, and not before, and no fault.
def endsIn : Nat → Build → List OpenDocument → Bool
  | 0, build, opened => build.fault?.isNone && turnsLeft build.workspace.machine.pauses opened == 0
  | n + 1, build, opened =>
    build.fault?.isNone && turnsLeft build.workspace.machine.pauses opened != 0 &&
      endsIn n (build.round opened).1 (build.round opened).2

theorem settle_of_endsIn {opened : List OpenDocument} {n : Nat} (ends : endsIn n build opened = true) :
    build.settle opened = rounds n build opened ∧ (build.settle opened).fault? = none := by
  induction n generalizing build opened with
  | zero =>
    simp only [endsIn, Bool.and_eq_true, Option.isNone_iff_eq_none, beq_iff_eq] at ends
    rw [settle, if_neg (by simp [ends.1]), if_pos ends.2]
    exact ⟨rfl, ends.1⟩
  | succ n ih =>
    simp only [endsIn, Bool.and_eq_true, Option.isNone_iff_eq_none, bne_iff_ne] at ends
    rw [settle, if_neg (by simp [ends.1.1]), if_neg ends.1.2]
    exact ih ends.2

-- The end of a build, by a computation that stops after a number of rounds.
def after (n : Nat) (build : Build) (documents : List Document) : Build :=
  rounds n (build.startAll documents).1 (build.startAll documents).2

def isDoneAfter (n : Nat) (build : Build) (documents : List Document) : Bool :=
  endsIn n (build.startAll documents).1 (build.startAll documents).2

theorem run_of_isDoneAfter {n : Nat} (done : build.isDoneAfter n documents = true) :
    build.run documents = build.after n documents ∧ (build.run documents).fault? = none :=
  settle_of_endsIn done

end Evaluation

end Build

section Outcome

variable {workspace : Workspace} {session : Session} {source output : Text}
variable {documents : List Document} {isThere : Bool} {report : Report}

theorem buildTree_of_discover
    (found : discover? workspace source session.settings.hostSuffix = some documents)
    (located : workspace.hasDirectory source = .ok isThere) :
    let start : Build := { source, output, workspace, session := session.reset }
    buildTree workspace session source output =
      ((start.run documents).workspace, (start.run documents).session,
        (start.run documents).outcome) := by
  have found' : discover? workspace source session.reset.settings.hostSuffix = some documents :=
    found
  simp only [buildTree, found', located]

theorem buildTree_of_isDoneAfter {n : Nat}
    (found : discover? workspace source session.settings.hostSuffix = some documents)
    (located : workspace.hasDirectory source = .ok isThere) :
    let start : Build := { source, output, workspace, session := session.reset }
    start.isDoneAfter n documents = true →
      buildTree workspace session source output =
        ((start.after n documents).workspace, (start.after n documents).session,
          .ok (start.after n documents).report) := by
  intro start done
  obtain ⟨same, quiet⟩ := Build.run_of_isDoneAfter done
  rw [buildTree_of_discover found located, Build.outcome_of_quiet quiet, same]

theorem exists_run_of_report (built : (buildTree workspace session source output).2.2 = .ok report) :
    ∃ documents, let start : Build := { source, output, workspace, session := session.reset }
      discover? workspace source session.settings.hostSuffix = some documents ∧
      (∃ isThere, workspace.hasDirectory source = .ok isThere) ∧
      (start.run documents).fault? = none ∧ (start.run documents).report = report ∧
      (buildTree workspace session source output).1 = (start.run documents).workspace := by
  cases found : discover? workspace source session.settings.hostSuffix with
  | none =>
    have found' : discover? workspace source session.reset.settings.hostSuffix = none := found
    simp [buildTree, found'] at built
  | some documents =>
    refine ⟨documents, rfl, ?_⟩
    cases located : workspace.hasDirectory source with
    | error fault =>
      have found' : discover? workspace source session.reset.settings.hostSuffix = some documents :=
        found
      simp [buildTree, found', located] at built
    | ok isThere =>
      rw [buildTree_of_discover found located] at built ⊢
      dsimp only at built ⊢
      unfold Build.outcome at built
      split at built
      next => cases built
      next quiet =>
        cases built
        exact ⟨⟨isThere, rfl⟩, quiet, rfl, rfl⟩

end Outcome
end Inlay
