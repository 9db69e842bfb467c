import Inlay.Proofs.Build.Course
import Inlay.Proofs.Build.Discovery
import Inlay.Proofs.Session.Attempt
import Mathlib.Data.List.Perm.Subperm

set_option autoImplicit false

namespace Inlay

open Text Workspace

namespace Build

variable {start build next : Build} {document : Document} {coding : Coding} {session : Session}
variable {documents pending : List Document} {log : List Ending} {ending : Ending}
variable {opened : List OpenDocument} {task : OpenDocument}

structure Follows (start build : Build) : Prop where
  source : build.source = start.source
  output : build.output = start.output
  settings : build.session.settings = start.session.settings
  machine : build.workspace.machine = start.workspace.machine

namespace Follows

theorem refl (build : Build) : Follows build build :=
  ⟨rfl, rfl, rfl, rfl⟩

theorem trans (early : Follows start build) (late : Follows build next) : Follows start next where
  source := late.source.trans early.source
  output := late.output.trans early.output
  settings := late.settings.trans early.settings
  machine := late.machine.trans early.machine

variable (follows : Follows start build)

include follows

theorem encoding_eq : build.encoding = start.encoding := by
  rw [Build.encoding, follows.settings]
  rfl

theorem sourcePath_eq (document : Document) :
    build.sourcePath document = start.sourcePath document := by
  rw [sourcePath, sourcePath, follows.source]

theorem identity_eq (document : Document) : build.identity document = start.identity document := by
  rw [identity, identity, follows.sourcePath_eq]

theorem resettled (settings : session.settings = build.session.settings) :
    Follows start { build with session } :=
  ⟨follows.source, follows.output, settings.trans follows.settings, follows.machine⟩

theorem takes (takes : Takes ending build next) : Follows start next where
  source := takes.source.trans follows.source
  output := takes.output.trans follows.output
  settings := by
    obtain ⟨journal, same⟩ := takes.session
    rw [same]
    exact follows.settings
  machine := (machine_of_depositAll takes.workspace).trans follows.machine

theorem coding_eq (name : Text) : build.workspace.coding name = start.workspace.coding name :=
  coding_of_machine follows.machine name

end Follows

theorem follows_conclude (build : Build) (document : Document) (text : Text)
    (result : Except Failure (Option Text)) :
    Follows build (build.conclude document text result) ∧
      ∃ journal, (build.conclude document text result).session = { build.session with journal } := by
  have machine := machine_conclude build document text result
  rcases conclude_cases build document text result with
    takes | ⟨code?, workspace, fault, -, -, -, stopped⟩
  next => exact ⟨(Follows.refl build).takes takes, takes.session⟩
  next =>
    rw [stopped] at machine ⊢
    exact ⟨⟨rfl, rfl, rfl, machine⟩, build.session.journal, rfl⟩

theorem startAll_append (build : Build) (front back : List Document) :
    (build.startAll (front ++ back)).1 = ((build.startAll front).1.startAll back).1 := by
  induction front generalizing build with
  | nil => rfl
  | cons first front ih => exact ih (build.start first).1

structure Logged (start : Build) (documents : List Document) (log : List Ending) (build : Build)
    (pending : List Document) : Prop extends Follows start build where
  report : build.report = Report.ofLog log
  workspace : depositAll start.encoding start.workspace (writesOf start.output log) =
    .ok build.workspace
  accounted : (log.map (·.document) ++ pending).Perm documents

theorem Logged.resettled (logged : Logged start documents log build pending)
    (settings : session.settings = build.session.settings) :
    Logged start documents log { build with session } pending :=
  ⟨logged.toFollows.resettled settings, logged.report, logged.workspace, logged.accounted⟩

theorem Logged.perm {others : List Document} (logged : Logged start documents log build pending)
    (same : others.Perm pending) : Logged start documents log build others :=
  ⟨logged.toFollows, logged.report, logged.workspace,
    (same.append_left _).trans logged.accounted⟩

theorem depositAll_append {encoding : Text} {workspace after : Workspace}
    {written more : List (Text × Text)} {middle : Workspace}
    (early : depositAll encoding workspace written = .ok middle)
    (late : depositAll encoding middle more = .ok after) :
    depositAll encoding workspace (written ++ more) = .ok after := by
  unfold depositAll at *
  rw [List.foldlM_append, early]
  exact late

theorem Logged.takes (logged : Logged start documents log build (ending.document :: pending))
    (takes : Takes ending build next) : Logged start documents (log ++ [ending]) next pending where
  toFollows := logged.toFollows.takes takes
  report := by rw [takes.report, logged.report, Report.ofLog_snoc]
  workspace := by
    have wrote := takes.workspace
    rw [logged.output, logged.encoding_eq] at wrote
    have whole := depositAll_append logged.workspace wrote
    rwa [writesOf, List.filterMap_append, List.filterMap_cons, List.filterMap_nil]
  accounted := by simpa using logged.accounted

structure Begins (start : Build) (coding : Coding) (documents : List Document) : Prop where
  tree : start.workspace.IsTree
  known : start.workspace.coding start.encoding = .ok coding
  found : discover? start.workspace start.source start.session.settings.hostSuffix = some documents

namespace Begins

variable (begins : start.Begins coding documents)

include begins

theorem isName (member : document ∈ documents) :
    document.components ≠ [] ∧ ∀ component ∈ document.components, IsName component :=
  isName_of_mem_discover begins.tree begins.found member

theorem placeOf_join (member : document ∈ documents) (base : Text) :
    placeOf (Path.joinTexts base document.relative) = placeOf base ++ document.components :=
  placeOf_joinTexts base fun component inside =>
    ((begins.isName member).2 component inside).toIsPlain

theorem eq_of_placeOf {other : Document} (member : document ∈ documents)
    (member' : other ∈ documents) {base : Text}
    (same : placeOf (Path.joinTexts base document.relative) =
      placeOf (Path.joinTexts base other.relative)) : document = other := by
  rw [begins.placeOf_join member, begins.placeOf_join member', List.append_cancel_left_eq] at same
  cases document
  cases other
  exact congrArg Document.mk same

-- The source directory was located, and below it a document's path goes up nowhere.
theorem straight_sourcePath (member : document ∈ documents) :
    start.workspace.Straight (start.sourcePath document) := by
  obtain ⟨-, place, located, -⟩ := (mem_discover begins.tree begins.found).1 member
  have plain (component : Text) (inside : component ∈ document.components) : IsPlain component :=
    ((begins.isName member).2 component inside).toIsPlain
  exact ⟨_, _, place, componentsOf_joinTexts start.source plain, (locate_eq_ok_iff.1 located).2.2,
    plain⟩

theorem name_suffix (member : document ∈ documents) :
    document.name <:+ start.identity document := by
  have nonempty := (begins.isName member).1
  have place : placeOf (start.sourcePath document) = placeOf start.source ++ document.components :=
    begins.placeOf_join member start.source
  obtain ⟨front, last, split⟩ : ∃ front last, document.components = front ++ [last] :=
    ⟨_, _, (List.dropLast_concat_getLast nonempty).symm⟩
  have named : document.name = last := by simp [Document.name, split]
  have known : start.identity document =
      '/' :: join ['/'] (placeOf start.source ++ front ++ [last]) := by
    rw [List.append_assoc, ← split, ← place]
    rfl
  rw [named, known]
  by_cases direct : placeOf start.source ++ front = []
  next =>
    rw [direct]
    exact List.suffix_cons _ _
  next =>
    rw [join_append_singleton _ _ direct]
    exact (List.suffix_append _ _).trans (List.suffix_cons _ _)

theorem apart_sourcePath (member : document ∈ documents)
    (apart : ¬ placeOf start.source <+: placeOf start.output)
    (apart' : ¬ placeOf start.output <+: placeOf start.source) :
    ¬ placeOf start.output <+: placeOf (start.sourcePath document) := by
  rw [sourcePath, begins.placeOf_join member]
  intro within
  rcases List.prefix_or_prefix_of_prefix within (List.prefix_append _ _) with inner | outer
  next => exact apart' inner
  next => exact apart outer

-- Documents that were found have the host suffix, so their texts are scanned for imports.
theorem firstJob_eq (follows : Follows start build) (member : document ∈ documents) (text : Text) :
    build.firstJob document text =
      .ready text (Import.scan start.session.settings.blockSuffix (start.identity document) text) := by
  obtain ⟨-, -, -, nonempty, -, named⟩ := (mem_discover begins.tree begins.found).1 member
  have ends : start.session.settings.hostSuffix <:+ document.name := by
    rw [matchesSuffix, Bool.and_eq_true] at named
    exact List.isSuffixOf_iff_suffix.1 named.2
  have same := follows.identity_eq document
  have accepted : build.session.accepts (build.identity document) = true := by
    rw [Session.accepts, endsWith, List.isSuffixOf_iff_suffix, follows.settings, same]
    exact ends.trans (begins.name_suffix member)
  rw [firstJob, if_pos accepted, follows.settings, same]
  rfl

end Begins

theorem fst_of_write? {output : Text} {item : Text × Text}
    (wrote : ending.write? output = some item) :
    item.1 = Path.joinTexts output ending.document.relative := by
  unfold Ending.write? at wrote
  split at wrote
  next => cases wrote
  next => cases wrote; rfl

theorem mem_writesOf {output : Text} {item : Text × Text} (member : item ∈ writesOf output log) :
    ∃ ending ∈ log, item.1 = Path.joinTexts output ending.document.relative := by
  obtain ⟨ending, among, wrote⟩ := List.mem_filterMap.1 member
  exact ⟨ending, among, fst_of_write? wrote⟩

-- A document has not ended before, and another document has another target.
theorem Begins.new_target (begins : start.Begins coding documents)
    (accounted : (log.map (·.document) ++ document :: pending).Subperm documents)
    (item : Text × Text) (member : item ∈ writesOf start.output log) :
    placeOf (Path.joinTexts start.output document.relative) ≠ placeOf item.1 := by
  obtain ⟨ending, among, path⟩ := mem_writesOf member
  rw [path]
  intro same
  have equal : document = ending.document :=
    begins.eq_of_placeOf (accounted.subset (by simp))
      (accounted.subset (List.mem_append_left _ (List.mem_map_of_mem among))) same
  obtain ⟨order, permuted, part⟩ := accounted
  have distinct := permuted.nodup_iff.1 ((nodup_discover begins.tree begins.found).sublist part)
  rw [List.nodup_append] at distinct
  exact distinct.2.2 _ (List.mem_map_of_mem among) _ List.mem_cons_self equal.symm

-- All texts are written below the output directory.
theorem Begins.outside {place : Place} (begins : start.Begins coding documents)
    (members : ∀ ending ∈ log, ending.document ∈ documents)
    (below : ¬ placeOf start.output <+: place) (item : Text × Text)
    (member : item ∈ writesOf start.output log) : place ≠ placeOf item.1 := by
  rintro rfl
  obtain ⟨ending, among, same⟩ := mem_writesOf member
  rw [same, begins.placeOf_join (members ending among)] at below
  exact below (List.prefix_append _ _)

namespace Logged

variable (logged : Logged start documents log build pending)

include logged

theorem mem_documents (member : ending ∈ log) : ending.document ∈ documents :=
  logged.accounted.subset (List.mem_append_left _ (List.mem_map_of_mem member))

theorem mem_of_pending (member : document ∈ pending) : document ∈ documents :=
  logged.accounted.subset (List.mem_append_right _ member)

variable (begins : start.Begins coding documents)

include begins

theorem deposits : Deposits coding (writesOf start.output log) start.workspace build.workspace := by
  refine Workspace.deposits begins.tree begins.known ?_ logged.workspace
  have distinct : (log.map (·.document)).Nodup :=
    (List.nodup_append.1
      (logged.accounted.nodup_iff.2 (nodup_discover begins.tree begins.found))).1
  have members (ending : Ending) (member : ending ∈ log) : ending.document ∈ documents :=
    logged.mem_documents member
  clear logged
  induction log with
  | nil => exact List.nodup_nil
  | cons ending log ih =>
    rw [List.map_cons, List.nodup_cons] at distinct
    have later := ih distinct.2 fun other member => members other (List.mem_cons_of_mem _ member)
    rw [writesOf, List.filterMap_cons]
    cases wrote : ending.write? start.output with
    | none => exact later
    | some item =>
      rw [List.map_cons, List.nodup_cons]
      refine ⟨?_, later⟩
      intro twice
      obtain ⟨other, member, same⟩ := List.mem_map.1 twice
      obtain ⟨known, among, wrote'⟩ := mem_writesOf member
      rw [fst_of_write? wrote, wrote'] at same
      have equal := begins.eq_of_placeOf (members known (List.mem_cons_of_mem _ among))
        (members ending List.mem_cons_self) same
      exact distinct.1 (equal ▸ List.mem_map_of_mem among)

theorem known : build.workspace.coding build.encoding = .ok coding := by
  rw [logged.coding_eq, logged.encoding_eq, begins.known]

theorem exists_written {code? : Option Text} (among : ending ∈ log)
    (outcome : ending.outcome = .ok code?) :
    ∃ bytes, coding.encode (code?.getD ending.text) = .ok bytes ∧
      build.workspace.get? (placeOf (Path.joinTexts start.output ending.document.relative)) =
        some (.file bytes) := by
  have wrote : (Path.joinTexts start.output ending.document.relative, code?.getD ending.text) ∈
      writesOf start.output log :=
    List.mem_filterMap.2 ⟨ending, among, by rw [Ending.write?, outcome]⟩
  exact (logged.deposits begins).file wrote

end Logged

theorem Logged.new_target (begins : start.Begins coding documents)
    (logged : Logged start documents log build (document :: pending))
    (item : Text × Text) (member : item ∈ writesOf start.output log) :
    placeOf (Path.joinTexts start.output document.relative) ≠ placeOf item.1 :=
  begins.new_target logged.accounted.subperm item member

/-- What holds of the session, of each document that has ended, and of the open ones. -/
structure Regime where
  shared : Session → Prop
  ended : Ending → Prop
  going : Session → OpenDocument → Prop

structure Keeps (regime : Regime) (start : Build) (documents : List Document) (build : Build)
    (opened : List OpenDocument) (rest : List Document) (log : List Ending) : Prop where
  logged : Logged start documents log build (opened.map (·.document) ++ rest)
  shared : regime.shared build.session
  ended : ∀ ending ∈ log, regime.ended ending
  going : ∀ task ∈ opened, regime.going build.session task

structure Moves (regime : Regime) (start : Build) (documents : List Document) (log : List Ending)
    (pending : List Document) (document : Document) (session : Session)
    (outcome : Build × Option OpenDocument) : Prop where
  shared : regime.shared outcome.1.session
  others : ∀ task, regime.going session task → regime.going outcome.1.session task
  fate :
    (outcome.2 = none ∧ ∃ ending, regime.ended ending ∧
      Logged start documents (log ++ [ending]) outcome.1 pending) ∨
    ∃ task, outcome.2 = some task ∧ task.document = document ∧
      regime.going outcome.1.session task ∧
      Logged start documents log outcome.1 (document :: pending)

section Regime

variable {regime : Regime}

theorem Keeps.of_moves {before after : List OpenDocument} {rest : List Document}
    {outcome : Build × Option OpenDocument} (ended : ∀ ending ∈ log, regime.ended ending)
    (going : ∀ task ∈ before ++ after, regime.going session task)
    (moves : Moves regime start documents log ((before ++ after).map (·.document) ++ rest) document
      session outcome) :
    ∃ log', Keeps regime start documents outcome.1
      (before ++ (outcome.2.toList ++ after)) rest log' := by
  obtain ⟨shared, others, ⟨gone, ending, fine, logged⟩ | ⟨moved, still, same, fine, logged⟩⟩ := moves
  next =>
    refine ⟨log ++ [ending], ?_, shared, ?_, ?_⟩
    next => simpa [gone] using logged
    next => exact List.forall_mem_append.2 ⟨ended, by simpa using fine⟩
    next =>
      rw [gone, Option.toList_none, List.nil_append]
      exact fun task member => others task (going task member)
  next =>
    refine ⟨log, ?_, shared, ended, ?_⟩
    next =>
      refine logged.perm ?_
      simp [still, same]
    next =>
      rw [still, Option.toList_some, List.singleton_append]
      intro task member
      rcases List.mem_cons.1 (List.perm_middle.subset member) with rfl | other
      next => exact fine
      next => exact others task (going task other)

theorem Keeps.next_document {rest : List Document}
    (keeps : Keeps regime start documents build opened (document :: rest) log) :
    Logged start documents log build (document :: (opened.map (·.document) ++ rest)) :=
  keeps.logged.perm List.perm_middle.symm

theorem Keeps.next_task {before after : List OpenDocument}
    (keeps : Keeps regime start documents build (before ++ task :: after) [] log) :
    Logged start documents log build (task.document :: (before ++ after).map (·.document)) := by
  refine keeps.logged.perm ?_
  simpa using List.perm_middle.symm

theorem Keeps.after_start {rest : List Document}
    (keeps : Keeps regime start documents build opened (document :: rest) log)
    (moves : Moves regime start documents log (opened.map (·.document) ++ rest) document
      build.session (build.start document)) :
    ∃ log', Keeps regime start documents (build.start document).1
      (opened ++ (build.start document).2.toList) rest log' := by
  have after : ∃ log', Keeps regime start documents (build.start document).1
      (opened ++ ((build.start document).2.toList ++ [])) rest log' :=
    Keeps.of_moves keeps.ended (by simpa using keeps.going) (by simpa using moves)
  simpa using after

theorem Keeps.after_turn {before after : List OpenDocument}
    (keeps : Keeps regime start documents build (before ++ task :: after) [] log)
    (moves : Moves regime start documents log ((before ++ after).map (·.document)) task.document
      build.session (build.turn task)) :
    ∃ log', Keeps regime start documents (build.turn task).1
      (before ++ ((build.turn task).2.toList ++ after)) [] log' := by
  refine Keeps.of_moves keeps.ended ?_ (by simpa using moves)
  intro other member
  exact keeps.going other (List.perm_middle.symm.subset (List.mem_cons_of_mem _ member))

theorem Keeps.initial (idle : start.report = {}) (shared : regime.shared start.session)
    (documents : List Document) : Keeps regime start documents start [] documents [] :=
  ⟨⟨.refl start, idle, rfl, .refl _⟩, shared, by simp, by simp⟩

theorem Keeps.run_of_quiet (idle : start.report = {}) (shared : regime.shared start.session)
    (starts : ∀ build log pending document,
      Logged start documents log build (document :: pending) → regime.shared build.session →
      (build.start document).1.fault? = none →
      Moves regime start documents log pending document build.session (build.start document))
    (turns : ∀ build log pending task,
      Logged start documents log build (task.document :: pending) → regime.shared build.session →
      regime.going build.session task → (build.turn task).1.fault? = none →
      Moves regime start documents log pending task.document build.session (build.turn task))
    (quiet : (start.run documents).fault? = none) :
    ∃ log, Keeps regime start documents (start.run documents) [] [] log := by
  let Holds (build : Build) (opened : List OpenDocument) (rest : List Document) : Prop :=
    build.fault? = none → ∃ log, Keeps regime start documents build opened rest log
  have ends : Rests Holds (start.run documents) ∧
      ((start.run documents).fault? = none → Holds (start.run documents) [] []) := by
    refine run_induction ?_ ?_ fun _ => ⟨[], .initial idle shared documents⟩
    next =>
      intro build opened document rest holds quiet
      obtain ⟨log, keeps⟩ := holds (fault_start quiet)
      exact keeps.after_start (starts build log _ document keeps.next_document keeps.shared quiet)
    next =>
      intro build before task after holds quiet
      obtain ⟨log, keeps⟩ := holds (fault_turn quiet)
      have going := keeps.going task (by simp)
      exact keeps.after_turn (turns build log _ task keeps.next_task keeps.shared going quiet)
  exact ends.2 quiet quiet

theorem Keeps.run_of_calm (idle : start.report = {}) (shared : regime.shared start.session)
    (calm : start.fault? = none)
    (starts : ∀ build log pending document,
      Logged start documents log build (document :: pending) → regime.shared build.session →
      build.fault? = none → (build.start document).1.fault? = none ∧
      Moves regime start documents log pending document build.session (build.start document))
    (turns : ∀ build log pending task,
      Logged start documents log build (task.document :: pending) → regime.shared build.session →
      regime.going build.session task → build.fault? = none →
      (build.turn task).1.fault? = none ∧
      Moves regime start documents log pending task.document build.session (build.turn task)) :
    (start.run documents).fault? = none ∧
      ∃ log, Keeps regime start documents (start.run documents) [] [] log := by
  let Holds (build : Build) (opened : List OpenDocument) (rest : List Document) : Prop :=
    build.fault? = none ∧ ∃ log, Keeps regime start documents build opened rest log
  have ends : Rests Holds (start.run documents) ∧
      ((start.run documents).fault? = none → Holds (start.run documents) [] []) := by
    refine run_induction ?_ ?_ ⟨calm, [], .initial idle shared documents⟩
    next =>
      rintro build opened document rest ⟨calm, log, keeps⟩
      obtain ⟨quiet, moves⟩ := starts build log _ document keeps.next_document keeps.shared calm
      exact ⟨quiet, keeps.after_start moves⟩
    next =>
      rintro build before task after ⟨calm, log, keeps⟩
      have going := keeps.going task (by simp)
      obtain ⟨quiet, moves⟩ := turns build log _ task keeps.next_task keeps.shared going calm
      exact ⟨quiet, keeps.after_turn moves⟩
  obtain ⟨opened, ⟨quiet, -⟩, -⟩ := ends.1
  exact ends.2 quiet

end Regime
end Build

section Sources

variable {files : List (Text × Bytes)} {session : Session} {names : List Text} {n : Nat}

def Build.ofSources (files : List (Text × Bytes)) (session : Session) (output : Text) : Build where
  source := "/src".toList
  output := output
  workspace := Workspace.ofSources files
  session := session.reset

theorem buildTree_ofSources (output : Text)
    (suffix : session.settings.hostSuffix = ".svelte".toList)
    (found : discover? (Workspace.ofSources files) "/src".toList ".svelte".toList =
      some (documentsOf names))
    (done : (Build.ofSources files session output).isDoneAfter n (documentsOf names) = true) :
    let ended := (Build.ofSources files session output).after n (documentsOf names)
    buildTree (Workspace.ofSources files) session "/src".toList output =
      (ended.workspace, ended.session, .ok ended.report) :=
  buildTree_of_isDoneAfter (suffix ▸ found) (hasDirectory_ofSources files) done

end Sources
end Inlay
