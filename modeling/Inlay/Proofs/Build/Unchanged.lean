import Inlay.Proofs.Build.Alone
import Inlay.Proofs.Text.Roundtrip
import Inlay.Proofs.Workspace.Fault

set_option autoImplicit false

namespace Inlay

open Text Workspace

variable {workspace : Workspace} {session : Session} {source output relative : Text}
variable {report : Report}

-- Without an encoding no text can be read, so every document fails or ends the build.
theorem exists_coding_of_unchanged
    (built : (buildTree workspace session source output).2.2 = .ok report)
    (member : relative ∈ report.unchanged) :
    ∃ coding, workspace.coding session.settings.encoding = .ok coding := by
  obtain ⟨documents, -, -, -, rfl, -⟩ := exists_run_of_report built
  by_contra unnamed
  let Holds (build : Build) (opened : List OpenDocument) (_ : List Document) : Prop :=
    (¬ ∃ coding, build.workspace.coding build.encoding = .ok coding) ∧ opened = [] ∧
      build.report.unchanged = []
  let start : Build := { source, output, workspace, session := session.reset }
  have ends : Build.Rests Holds (start.run documents) := by
    refine (Build.run_induction ?_ ?_ ⟨unnamed, rfl, rfl⟩).1
    next =>
      rintro build _ document rest ⟨unnamed, rfl, nothing⟩
      rcases Build.start_cases build document with
        ⟨text, read, -⟩ | ⟨fault, -, -, begun⟩ | ⟨fault, -, -, begun⟩
      next =>
        obtain ⟨-, bytes, coding, decoded, -, known, -⟩ := readText_eq_ok_iff.1 read
        exact absurd ⟨coding, known⟩ unnamed
      next => exact begun ▸ ⟨unnamed, rfl, nothing⟩
      next => exact begun ▸ ⟨unnamed, rfl, nothing⟩
    next =>
      rintro build before task after ⟨-, opened, -⟩
      simp at opened
  obtain ⟨opened, ⟨-, -, nothing⟩, -⟩ := ends
  have absent : relative ∉ (start.run documents).report.unchanged := by simp [nothing]
  exact absent member

namespace Build

variable {start build : Build} {coding : Coding} {documents pending : List Document}
variable {log : List Ending} {document : Document} {task : OpenDocument}

-- The texts of the documents are those that they have when the build begins.
def original (start : Build) : Regime where
  shared := fun _ => True
  ended := fun ending => ∀ code?, ending.outcome = .ok code? →
    start.reader.read (start.sourcePath ending.document) = .ok ending.text
  going := fun _ task => start.reader.read (start.sourcePath task.document) = .ok task.text

theorem original_turn (logged : Logged start documents log build (task.document :: pending))
    (read : start.reader.read (start.sourcePath task.document) = .ok task.text)
    (quiet : (build.turn task).1.fault? = none) :
    Moves (original start) start documents log pending task.document build.session
      (build.turn task) := by
  have settled := logged.resettled
    (Session.settings_turn build.reader (build.identity task.document) build.session task.job)
  rcases turn_cases build task with ⟨-, turned⟩ | ⟨result, -, turned⟩
  next =>
    rw [turned]
    exact ⟨trivial, fun _ others => others, .inr ⟨_, rfl, rfl, read, settled⟩⟩
  next =>
    rw [turned] at quiet ⊢
    have takes := (takes_conclude _ task.document task.text result).resolve_right
      fun failed => failed.2 quiet
    have ended : (original start).ended (endingOf task.document task.text result) := fun _ _ => read
    exact ⟨trivial, fun _ others => others, .inl ⟨rfl, _, ended, settled.takes takes⟩⟩

theorem original_start (begins : start.Begins coding documents)
    (apart : ¬ placeOf start.source <+: placeOf start.output)
    (apart' : ¬ placeOf start.output <+: placeOf start.source)
    (logged : Logged start documents log build (document :: pending))
    (quiet : (build.start document).1.fault? = none) :
    Moves (original start) start documents log pending document build.session
      (build.start document) := by
  rcases start_cases build document with
    ⟨text, read, begun⟩ | ⟨fault, -, -, begun⟩ | ⟨fault, -, -, begun⟩
  next =>
    have member := logged.mem_of_pending List.mem_cons_self
    rw [begun] at quiet ⊢
    have opened : Logged start documents log build
        ((⟨document, text, build.firstJob document text⟩ : OpenDocument).document :: pending) := logged
    exact original_turn opened (logged.read_source begins member apart apart' read) quiet
  next =>
    rw [begun]
    have takes := takes_fail build document ⟨fault.message, fault.code, []⟩
    exact ⟨trivial, fun _ others => others, .inl ⟨rfl, _, by rintro _ ⟨⟩, logged.takes takes⟩⟩
  next =>
    rw [begun] at quiet
    exact absurd quiet (fault_stop build fault)

theorem original_run (begins : start.Begins coding documents)
    (apart : ¬ placeOf start.source <+: placeOf start.output)
    (apart' : ¬ placeOf start.output <+: placeOf start.source) (idle : start.report = {})
    (quiet : (start.run documents).fault? = none) :
    ∃ log, Keeps (original start) start documents (start.run documents) [] [] log :=
  Keeps.run_of_quiet idle trivial
    (fun _ _ _ _ logged _ quiet => original_start begins apart apart' logged quiet)
    (fun _ _ _ _ logged _ read quiet => original_turn logged read quiet) quiet

end Build

structure Workspace.PassedOn (coding : Coding) (before after : Workspace) (path target text : Text)
    (bytes copy : Bytes) : Prop where
  original : before.read path path = .ok bytes
  kept : after.read path path = .ok bytes
  written : after.read target target = .ok copy
  decoded : coding.decode bytes = .ok text
  encoded : coding.encode (unifyLines text) = .ok copy

/-- A document that a build passes on is written as the encoding writes its text with unified line
ends. If that is read again as this text, then the bytes are the document's just if no carriage
return is in it and its encoding writes what it reads; for the encodings that are written out, just
if no carriage return is in the bytes and the mark of the encoding was there. -/
theorem buildTree_copies (tree : workspace.IsTree)
    (apart : ¬ placeOf source <+: placeOf output) (apart' : ¬ placeOf output <+: placeOf source)
    (built : (buildTree workspace session source output).2.2 = .ok report) :
    ∀ relative ∈ report.unchanged, ∃ coding text bytes copy,
      workspace.coding session.settings.encoding = .ok coding ∧
      PassedOn coding workspace (buildTree workspace session source output).1
        (Path.joinTexts source relative) (Path.joinTexts output relative) text bytes copy ∧
      (coding.decode copy = .ok (unifyLines text) →
        (copy = bytes ↔ '\r' ∉ text ∧ coding.encode text = .ok bytes)) ∧
      ∀ codec, Codec.ofName? session.settings.encoding = some codec →
        (copy = bytes ↔ 13 ∉ bytes ∧ (codec = .markedUtf8 → byteOrderMark <+: bytes)) := by
  intro relative member
  obtain ⟨coding, known⟩ := exists_coding_of_unchanged built member
  obtain ⟨documents, found, -, quiet, rfl, same⟩ := exists_run_of_report built
  let start : Build := { source, output, workspace, session := session.reset }
  have begins : start.Begins coding documents := ⟨tree, known, found⟩
  obtain ⟨log, keeps⟩ := Build.original_run begins apart apart' rfl quiet
  have logged := keeps.logged
  rw [logged.report] at member
  obtain ⟨ending, among, rfl, outcome⟩ := Report.mem_unchanged.1 member
  obtain ⟨bytes, text, original, decoded, unified⟩ :=
    exists_decoded_of_readText known (keeps.ended ending among none outcome)
  have listed := logged.mem_documents among
  have wrote : (Path.joinTexts output ending.document.relative, ending.text) ∈
      writesOf output log := List.mem_filterMap.2 ⟨ending, among, by rw [Ending.write?, outcome]; rfl⟩
  obtain ⟨copy, encoded, written⟩ := (logged.deposits begins).found _ wrote
  rw [unified] at encoded
  -- The document itself is not written over.
  have kept := (logged.deposits begins).read
    (begins.outside (fun _ => logged.mem_documents) (begins.apart_sourcePath listed apart apart'))
    original
  rw [same]
  refine ⟨coding, text, bytes, copy, known, ⟨original, kept, written, decoded, encoded⟩,
    Coding.copy_eq_iff decoded encoded, fun codec named => ?_⟩
  cases known.symm.trans (coding_of_ofName? named)
  exact Codec.copy_eq_iff decoded encoded

def pageFile (bytes : Bytes) : List (Text × Bytes) :=
  [("a.svelte".toList, bytes)]

def pageOf (bytes : Bytes) : Workspace :=
  ofSources (pageFile bytes)

theorem isTree_pageOf (bytes : Bytes) : (pageOf bytes).IsTree := by
  have named : IsName "a.svelte".toList := by decide
  exact isTree_ofSources (List.forall_mem_singleton.2 named) (List.nodup_singleton _)

theorem discover_pageOf (bytes : Bytes) :
    discover? (pageOf bytes) "/src".toList ".svelte".toList = some (documentsOf ["a.svelte".toList]) :=
  discover_ofSources rfl (List.pairwise_singleton _ _)

def markedSession : Session where
  settings := { encoding := "utf-8-sig".toList }

theorem buildTree_copies_of_mark :
    let bytes := byteOrderMark ++ Utf8.encode "<p/>".toList
    let built := buildTree (pageOf bytes) markedSession "/src".toList "/out".toList
    ∃ report, built.2.2 = .ok report ∧ report.unchanged = ["a.svelte".toList] ∧
      built.1.read "/out/a.svelte".toList "/out/a.svelte".toList = .ok bytes := by
  intro bytes built
  let started := Build.ofSources (pageFile bytes) markedSession "/out".toList
  let ended := started.after 0 (documentsOf ["a.svelte".toList])
  have course : started.isDoneAfter 0 (documentsOf ["a.svelte".toList]) = true ∧
      ended.report.unchanged = ["a.svelte".toList] := by decide +kernel
  have reported : built.2.2 = .ok ended.report :=
    congrArg (fun outcome => outcome.2.2)
      (buildTree_ofSources "/out".toList rfl (discover_pageOf bytes) course.1)
  refine ⟨ended.report, reported, course.2, ?_⟩
  obtain ⟨coding, text, bytes', copy, known, passed, -, same⟩ := buildTree_copies (isTree_pageOf bytes)
    (by decide +kernel) (by decide +kernel) reported "a.svelte".toList (by rw [course.2]; decide)
  have original : bytes = bytes' := Except.ok.inj passed.original
  have named : Codec.ofName? markedSession.settings.encoding = some .markedUtf8 := by decide +kernel
  have clean : 13 ∉ bytes := by decide +kernel
  have whole : copy = bytes' :=
    (same _ named).2 ⟨original ▸ clean, fun _ => original ▸ List.prefix_append _ _⟩
  rw [original, ← whole]
  exact passed.written

theorem buildTree_copy_differs :
    (¬ placeOf "/src".toList <+: placeOf "/out".toList ∧
      ¬ placeOf "/out".toList <+: placeOf "/src".toList) ∧
    ∀ item ∈ [(({} : Session), "<p>\r\n</p>"), (markedSession, "<p/>")],
      let bytes := Utf8.encode item.2.toList
      let built := buildTree (pageOf bytes) item.1 "/src".toList "/out".toList
      (pageOf bytes).IsTree ∧ ∃ report, built.2.2 = .ok report ∧
        "a.svelte".toList ∈ report.unchanged ∧
        built.1.read "/src/a.svelte".toList "/src/a.svelte".toList = .ok bytes ∧
        built.1.read "/out/a.svelte".toList "/out/a.svelte".toList ≠ .ok bytes := by
  have course : ∀ item ∈ [(({} : Session), "<p>\r\n</p>"), (markedSession, "<p/>")],
      let bytes := Utf8.encode item.2.toList
      let started := Build.ofSources (pageFile bytes) item.1 "/out".toList
      let ended := started.after 0 (documentsOf ["a.svelte".toList])
      item.1.settings.hostSuffix = ".svelte".toList ∧
        started.isDoneAfter 0 (documentsOf ["a.svelte".toList]) = true ∧
        "a.svelte".toList ∈ ended.report.unchanged ∧
        ended.workspace.read "/src/a.svelte".toList "/src/a.svelte".toList = .ok bytes ∧
        ended.workspace.read "/out/a.svelte".toList "/out/a.svelte".toList ≠ .ok bytes := by
    simp only [List.forall_mem_cons, List.not_mem_nil, false_implies, implies_true, and_true]
    decide +kernel
  refine ⟨⟨by decide, by decide⟩, fun item member => ⟨isTree_pageOf _, ?_⟩⟩
  obtain ⟨suffix, done, unchanged, original, other⟩ := course item member
  have built := buildTree_ofSources "/out".toList suffix (discover_pageOf _) done
  rw [pageOf, built]
  exact ⟨_, rfl, unchanged, original, other⟩

end Inlay
