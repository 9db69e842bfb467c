import Inlay.Proofs.Build.Provenance

set_option autoImplicit false

namespace Inlay

open Text Workspace

namespace Workspace

variable {workspace : Workspace} {encoding shown path text : Text} {bytes : Bytes}
variable {fault : FileFault} {coding : Coding}

inductive Unreported (workspace : Workspace) (encoding shown path : Text) : FileFault → Prop
  | null (illegible : Char.ofNat 0 ∈ encoding ∨ Char.ofNat 0 ∈ path) :
      Unreported workspace encoding shown path .nullCharacter
  | unnamed {fault : FileFault} {bytes : Bytes} (legible : Char.ofNat 0 ∉ encoding)
      (there : workspace.read shown path = .ok bytes)
      (unnamed : workspace.coding encoding = .error fault) :
      Unreported workspace encoding shown path fault
  | refused {coding : Coding} {message : Text} {bytes : Bytes} (legible : Char.ofNat 0 ∉ encoding)
      (there : workspace.read shown path = .ok bytes)
      (known : workspace.coding encoding = .ok coding)
      (refused : coding.decode bytes = .error (.refused message)) :
      Unreported workspace encoding shown path (.refused message)

theorem isReported_of_isSystem (system : fault.isSystem = true) : Build.isReported fault = true := by
  cases fault <;> first | rfl | exact system

theorem readText_of_null (null : Char.ofNat 0 ∈ encoding) :
    workspace.readText encoding shown path = .error .nullCharacter := by
  unfold readText
  rw [if_pos (by simpa using null)]
  rfl

theorem readText_of_fault (legible : Char.ofNat 0 ∉ encoding)
    (failed : workspace.read shown path = .error fault) :
    workspace.readText encoding shown path = .error fault := by
  unfold readText
  rw [if_neg (by simpa using legible), failed]
  rfl

theorem readText_of_unnamed (legible : Char.ofNat 0 ∉ encoding)
    (there : workspace.read shown path = .ok bytes)
    (unnamed : workspace.coding encoding = .error fault) :
    workspace.readText encoding shown path = .error fault := by
  unfold readText
  rw [if_neg (by simpa using legible), there, unnamed]
  rfl

theorem readText_of_decode_error {cause : DecodeError} (legible : Char.ofNat 0 ∉ encoding)
    (there : workspace.read shown path = .ok bytes)
    (known : workspace.coding encoding = .ok coding) (failed : coding.decode bytes = .error cause) :
    workspace.readText encoding shown path = .error (.ofDecode cause) := by
  unfold readText
  rw [if_neg (by simpa using legible), there, known]
  simp [failed, Bind.bind, Except.bind, throw, throwThe, MonadExceptOf.throw]

theorem isReported_of_coding (unnamed : workspace.coding encoding = .error fault) :
    Build.isReported fault = false := by
  unfold Workspace.coding at unnamed
  split at unnamed
  next => cases unnamed
  next => split at unnamed <;> cases unnamed <;> rfl

theorem unreported_iff : workspace.readText encoding shown path = .error fault ∧
    Build.isReported fault = false ↔ Unreported workspace encoding shown path fault := by
  constructor
  next =>
    rintro ⟨failed, unreported⟩
    rcases cases_of_readText_error failed with
      ⟨null, rfl⟩ | ⟨legible, unread | ⟨bytes, there, unnamed | ⟨coding, cause, known, decoded, rfl⟩⟩⟩
    next => exact .null (.inl null)
    next =>
      rcases isOfPath_of_read unread with ⟨rfl, inside⟩ | system
      next => exact .null (.inr inside)
      next => cases unreported.symm.trans (isReported_of_isSystem system)
    next => exact .unnamed legible there unnamed
    next =>
      cases cause with
      | undecodable => cases unreported
      | refused message => exact .refused legible there known decoded
  next =>
    intro unreported
    cases unreported with
    | null illegible =>
      refine ⟨?_, rfl⟩
      by_cases null : Char.ofNat 0 ∈ encoding
      next => exact readText_of_null null
      next =>
        -- A path that cannot be one is not followed.
        have inside := illegible.resolve_left null
        refine readText_of_fault null ?_
        rw [Workspace.read, entryAt, locate, if_pos (by simpa using inside)]
        rfl
    | unnamed legible there unnamed =>
      exact ⟨readText_of_unnamed legible there unnamed, isReported_of_coding unnamed⟩
    | refused legible there known refused =>
      exact ⟨readText_of_decode_error legible there known refused, rfl⟩

-- Putting a text behind a path fails for the path or because the encoding refuses the text.
theorem fault_of_deposit (legible : Char.ofNat 0 ∉ path)
    (known : workspace.coding encoding = .ok coding)
    (failed : workspace.deposit encoding path text = .error fault) :
    fault.isSystem = true ∨ ∃ cause, coding.encode text = .error cause ∧ fault = .ofEncode cause := by
  unfold deposit at failed
  cases directories : workspace.makeDirectories (Path.directory path) with
  | error cause =>
    simp only [directories, Except.error.injEq] at failed
    subst failed
    exact .inl ((isOfPath_of_makeDirectories directories).resolve_left
      fun null => legible (directory_subset path null.2))
  | ok made =>
    cases wrote : made.writeText encoding path text with
    | mk after result =>
      simp only [directories, wrote] at failed
      cases result with
      | ok _ => cases failed
      | error cause =>
        cases failed
        rw [← coding_of_machine (machine_of_makeDirectories directories)] at known
        refine (fault_of_writeText known (congrArg Prod.snd wrote)).imp_left fun ofPath => ?_
        exact ofPath.resolve_left fun null => legible null.2

end Workspace

namespace Build

variable {start build : Build} {document : Document} {base : Text} {coding : Coding}
variable {documents front back : List Document} {task : OpenDocument} {fault other : FileFault}

def Named (document : Document) : Prop :=
  ∀ component ∈ document.components, IsName component

theorem Named.legible (named : Named document) (legible : Char.ofNat 0 ∉ base) :
    Char.ofNat 0 ∉ Path.joinTexts base document.relative := by
  refine legible_of_componentsOf fun component inside => ?_
  rw [Document.relative,
    componentsOf_joinTexts _ fun component inside => (named component inside).toIsPlain] at inside
  rcases List.mem_append.1 inside with outer | inner
  next => exact legible_of_mem_componentsOf legible outer
  next => exact (named component inner).legible

-- The first turns of the documents come to one that cannot be read, and no fault is before it.
def Stumbles (start : Build) (documents : List Document) (fault : FileFault) : Prop :=
  ∃ front document back, documents = front ++ document :: back ∧
    (start.startAll front).1.fault? = none ∧
    (start.startAll front).1.workspace.Unreported start.encoding (start.sourcePath document)
      (start.sourcePath document) fault

-- The encoding refuses some text.
def Unwritable (workspace : Workspace) (encoding : Text) (fault : FileFault) : Prop :=
  ∃ coding text cause, workspace.coding encoding = .ok coding ∧
    coding.encode text = .error cause ∧ fault = .ofEncode cause

theorem stop_eq_some_iff : (build.stop fault).fault? = some other ↔
    build.fault? = some other ∨ build.fault? = none ∧ fault = other := by
  cases earlier : build.fault? <;> simp [stop, earlier]

section Standing

end Standing

/-- While a build goes on, its fault is the system's, or a document's that could not be read, or a
text was refused. -/
structure Blamed (start : Build) (documents : List Document) (build : Build) : Prop
    extends Follows start build where
  blame : ∀ fault, build.fault? = some fault → fault.isSystem = true ∨
    start.Stumbles documents fault ∨ Unwritable start.workspace start.encoding fault

/-- A document that has a name, and whose text was read. -/
structure Fits (start : Build) (task : OpenDocument) : Prop where
  named : Named task.document
  known : ∃ coding, start.workspace.coding start.encoding = .ok coding

section Blame

variable (output : Char.ofNat 0 ∉ start.output)

include output

theorem Blamed.after_conclude {text : Text} {result : Except Failure (Option Text)}
    (blamed : Blamed start documents build) (named : Named document)
    (known : start.workspace.coding start.encoding = .ok coding) :
    Blamed start documents (build.conclude document text result) := by
  refine ⟨blamed.toFollows.trans (follows_conclude ..).1, fun fault faulty => ?_⟩
  rcases conclude_cases build document text result with
    takes | ⟨code?, workspace, cause, -, failed, -, stopped⟩
  next => exact blamed.blame fault (by rwa [takes.fault] at faulty)
  next =>
    rw [stopped] at faulty
    rcases stop_eq_some_iff.1 faulty with earlier | ⟨-, rfl⟩
    next => exact blamed.blame fault earlier
    next =>
      rw [blamed.encoding_eq, targetPath, blamed.output] at failed
      have known' := (blamed.coding_eq start.encoding).trans known
      refine (fault_of_deposit (named.legible output) known' failed).imp_right ?_
      rintro ⟨cause, refused, rfl⟩
      exact .inr ⟨coding, _, cause, known, refused, rfl⟩

theorem Blamed.after_turn (blamed : Blamed start documents build) (fits : start.Fits task) :
    Blamed start documents (build.turn task).1 ∧
      ∀ moved ∈ (build.turn task).2, start.Fits moved := by
  have follows := blamed.toFollows.resettled
    (Session.settings_turn build.reader (build.identity task.document) build.session task.job)
  rcases turn_cases build task with ⟨-, turned⟩ | ⟨result, -, turned⟩
  next =>
    rw [turned]
    refine ⟨⟨follows, blamed.blame⟩, ?_⟩
    rintro moved ⟨⟩
    exact ⟨fits.named, fits.known⟩
  next =>
    rw [turned]
    obtain ⟨coding, known⟩ := fits.known
    exact ⟨Blamed.after_conclude output ⟨follows, blamed.blame⟩ fits.named known, nofun⟩

theorem Blamed.after_start (blamed : Blamed start (front ++ document :: back) (start.startAll front).1)
    (named : Named document) :
    let begun := (start.startAll front).1.start document
    Blamed start (front ++ document :: back) begun.1 ∧ ∀ moved ∈ begun.2, start.Fits moved := by
  intro begun
  have follows := blamed.toFollows
  rcases start_cases (start.startAll front).1 document with
    ⟨text, read, same⟩ | ⟨cause, -, -, same⟩ | ⟨cause, read, unreported, same⟩
  next =>
    obtain ⟨-, bytes, coding, decoded, -, known, -⟩ := readText_eq_ok_iff.1 read
    rw [follows.coding_eq, follows.encoding_eq] at known
    have fits : start.Fits ⟨document, text, (start.startAll front).1.firstJob document text⟩ :=
      ⟨named, coding, known⟩
    simp only [begun, same]
    exact blamed.after_turn output fits
  next =>
    simp only [begun, same]
    exact ⟨⟨⟨follows.source, follows.output, follows.settings, follows.machine⟩, blamed.blame⟩, nofun⟩
  next =>
    simp only [begun, same]
    refine ⟨⟨⟨follows.source, follows.output, follows.settings, follows.machine⟩,
      fun fault faulty => ?_⟩, nofun⟩
    rcases stop_eq_some_iff.1 faulty with earlier | ⟨calm, rfl⟩
    next => exact blamed.blame fault earlier
    next =>
      have here := unreported_iff.1 ⟨read, unreported⟩
      rw [follows.sourcePath_eq, follows.encoding_eq] at here
      exact .inr (.inl ⟨front, document, back, rfl, calm, here⟩)

end Blame

end Build

section Tree

variable {workspace : Workspace} {session : Session} {source output suffix : Text}
variable {documents : List Document} {fault : FileFault}

end Tree
end Inlay
