import Inlay.Proofs.Build.Record
import Inlay.Proofs.Import.Resolution
import Inlay.Proofs.Session.Repertoire
import Inlay.Proofs.Text.Roundtrip
import Inlay.Proofs.Workspace.Fault

set_option autoImplicit false

namespace Inlay

open Text Workspace Markup

def Workspace.ReadsEither (encoding : Text) (before after : Workspace) (path text : Text) : Prop :=
  (before.reader encoding).read path = .ok text ∨ (after.reader encoding).read path = .ok text

def Sourced (behind : Text → Text → Prop) (references : List Import) (text : Text) (c : Char) :
    Prop :=
  c ∈ text ∨ c ∈ insertedMarks ∨ ∃ reference ∈ references, ∃ raw, behind reference.path raw ∧ c ∈ raw

inductive Job.Becomes (document : Text) (first : Job) : Job → Prop
  | refl : Becomes document first first
  | turn {job : Job} (earlier : Becomes document first job) (session : Session) (reader : Reader) :
      Becomes document first (session.turn reader document job).2

structure Workspace.Holds (codec : Codec) (encoding : Text) (workspace : Workspace)
    (path text : Text) : Prop where
  stored : ∃ bytes, codec.encode? text = some bytes ∧ workspace.read path path = .ok bytes
  read : (workspace.reader encoding).read path = .ok text

theorem Job.Becomes.remaining {document : Text} {first job : Job}
    (becomes : Job.Becomes document first job) : job.remaining ⊆ first.remaining := by
  induction becomes with
  | refl => exact List.Subset.refl _
  | turn _ session reader ih =>
    exact List.Subset.trans (Session.remaining_turn reader document session _) ih

def Codec.Returns (codec : Codec) (c : Char) : Prop :=
  codec.Has c ∧ c ≠ '\r'

namespace Workspace

variable {workspace before middle after : Workspace} {encoding path text : Text} {codec : Codec}
variable {written more : List (Text × Text)}

theorem returns_of_readText (known : workspace.coding encoding = .ok codec.coding)
    (read : (workspace.reader encoding).read path = .ok text) : Within codec.Returns text := by
  refine fun c member => ⟨within_readText known read c member, ?_⟩
  obtain ⟨bytes, decoded, -, -, rfl⟩ := exists_decoded_of_readText known read
  rintro rfl
  exact not_mem_unifyLines decoded member

theorem ReadsEither.returns (known : before.coding encoding = .ok codec.coding)
    (machine : after.machine = before.machine)
    (reads : ReadsEither encoding before after path text) : Within codec.Returns text :=
  reads.elim (returns_of_readText known)
    (returns_of_readText ((coding_of_machine machine encoding).trans known))

theorem ReadsEither.legible (reads : ReadsEither encoding before after path text) :
    Char.ofNat 0 ∉ encoding :=
  reads.elim (fun read => (readText_eq_ok_iff.1 read).1) fun read => (readText_eq_ok_iff.1 read).1

-- A place is written once, so what is replaced there was there from the beginning.
theorem ReadsEither.mono (tree : before.IsTree) (early : Filled codec.coding written before middle)
    (late : Filled codec.coding more middle after)
    (new : ∀ item ∈ more, ∀ other ∈ written, placeOf item.1 ≠ placeOf other.1)
    (straight : before.Straight path) (reads : ReadsEither encoding before middle path text) :
    ReadsEither encoding before after path text := by
  rcases reads with read | read
  next => exact .inl read
  next =>
    by_cases replaced : ∃ item ∈ more, placeOf path = placeOf item.1
    next =>
      obtain ⟨item, member, same⟩ := replaced
      have outside (other : Text × Text) (among : other ∈ written) : placeOf path ≠ placeOf other.1 :=
        same ▸ new item member other among
      exact .inl (readText_mono early.machine.symm
        (fun bytes => (early.read_iff tree outside straight).1) read)
    next =>
      have outside (item : Text × Text) (member : item ∈ more) : placeOf path ≠ placeOf item.1 :=
        fun same => replaced ⟨item, member, same⟩
      exact .inr (readText_mono late.machine (fun bytes => late.read outside) read)

theorem Filled.holds (done : Filled codec.coding written before after)
    (known : before.coding encoding = .ok codec.coding) (legible : Char.ofNat 0 ∉ encoding)
    (member : (path, text) ∈ written) (returns : Within codec.Returns text) :
    after.Holds codec encoding path text := by
  obtain ⟨bytes, encoded, read⟩ := done.found _ member
  rw [Codec.encode_coding_iff] at encoded
  have known' := (coding_of_machine done.machine encoding).trans known
  refine ⟨⟨bytes, encoded, read⟩, readText_eq_ok_iff.2 ⟨legible, bytes, codec.coding, text, read,
    known', Codec.decode_coding_iff.2 (Codec.decode_of_encode? encoded), ?_⟩⟩
  exact (unifyLines_eq_self fun carriage => (returns _ carriage).2 rfl).symm

end Workspace

theorem Sourced.returns {behind : Text → Text → Prop} {references : List Import} {text : Text}
    {c : Char} {codec : Codec} (sourced : Sourced behind references text c)
    (whole : Within codec.Returns text)
    (others : ∀ path raw, behind path raw → Within codec.Returns raw) : codec.Returns c := by
  rcases sourced with inside | mark | ⟨reference, -, raw, there, inside⟩
  next => exact whole c inside
  next =>
    refine ⟨within_insertedMarks codec c mark, ?_⟩
    rintro rfl
    revert mark
    decide
  next => exact others _ raw there c inside

namespace Build

variable {start build next : Build} {document : Document} {documents pending : List Document}
variable {codec : Codec} {log : List Ending} {ending : Ending} {task : OpenDocument}
variable {text : Text} {job : Job} {workspace workspace' : Workspace} {fault : FileFault}
variable {result : Except Failure (Option Text)} {code? : Option Text}

def importsOf (start : Build) (document : Document) (text : Text) : List Import :=
  Import.scan start.session.settings.blockSuffix (start.identity document) text

def Finds (start : Build) (workspace : Workspace) : Text → Text → Prop :=
  ReadsEither start.encoding start.workspace workspace

def Behind (start : Build) (workspace : Workspace) (path text : Text) : Prop :=
  start.workspace.Straight path → start.Finds workspace path text

structure Making (start : Build) (workspace : Workspace) (document : Document) (text : Text)
    (job : Job) : Prop where
  read : start.Finds workspace (start.sourcePath document) text
  becomes : Job.Becomes (start.identity document) (.ready text (start.importsOf document text)) job
  within : job.Within (Sourced (start.Finds workspace) (start.importsOf document text) text)

def Onward (start : Build) (before after : Workspace) : Prop :=
  ∀ path text, start.workspace.Straight path → start.Finds before path text →
    start.Finds after path text

theorem Making.mono (begins : start.Begins codec.coding documents) (member : document ∈ documents)
    (onward : start.Onward workspace workspace')
    (making : Making start workspace document text job) :
    Making start workspace' document text job where
  read := onward _ _ (begins.straight_sourcePath member) making.read
  becomes := making.becomes
  within := by
    refine making.within.mono fun c sourced => sourced.imp_right (.imp_right ?_)
    rintro ⟨reference, imported, raw, there, inside⟩
    have straight := Import.straight_of_mem_scan start.workspace imported
    exact ⟨reference, imported, raw, onward _ _ straight there, inside⟩

theorem Making.of_read (read : start.Finds workspace (start.sourcePath document) text) :
    Making start workspace document text (.ready text (start.importsOf document text)) where
  read := read
  becomes := .refl
  within := fun _ member => .inl member

theorem obeys_reader (follows : Follows start build) :
    build.reader.Obeys (start.Behind build.workspace) := by
  intro path text read _
  refine .inr ?_
  rwa [reader, follows.encoding_eq] at read

theorem Making.turn (follows : Follows start build)
    (stored : build.session.Obeys (start.Behind build.workspace))
    (making : Making start build.workspace document text job) :
    Making start build.workspace document text
      (build.session.turn build.reader (build.identity document) job).2 where
  read := making.read
  becomes := follows.identity_eq document ▸ making.becomes.turn build.session build.reader
  within := by
    refine Session.within_turn (fun c mark => .inr (.inl mark)) (obeys_reader follows) ?_ stored
      making.within
    intro reference remaining raw there c inside
    have imported := making.becomes.remaining remaining
    have straight := Import.straight_of_mem_scan start.workspace imported
    exact .inr (.inr ⟨reference, imported, raw, there straight, inside⟩)

theorem Making.returns (known : start.workspace.coding start.encoding = .ok codec.coding)
    (machine : workspace.machine = start.workspace.machine)
    (making : Making start workspace document text (.finished (.ok code?))) :
    Within codec.Returns (code?.getD text) := by
  have whole : Within codec.Returns text := ReadsEither.returns known machine making.read
  cases code? with
  | none => exact whole
  | some code =>
    intro c member
    exact (making.within code rfl c member).returns whole fun _ _ =>
      ReadsEither.returns known machine

/-- A document that a fault has cut off is in no list. -/
structure Traced (start : Build) (codec : Codec) (documents : List Document) (log : List Ending)
    (build : Build) (pending : List Document) : Prop extends Follows start build where
  report : build.report = Report.ofLog log
  filled : Filled codec.coding (writesOf start.output log) start.workspace build.workspace
  accounted : (log.map (·.document) ++ pending).Subperm documents
  stored : build.session.Obeys (start.Behind build.workspace)
  ended : ∀ ending ∈ log, ∀ code?, ending.outcome = .ok code? →
    Making start build.workspace ending.document ending.text (.finished (.ok code?))
  encodable : build.fault? ≠ some .unencodable

theorem writesOf_snoc (output : Text) (log : List Ending) (ending : Ending) :
    writesOf output (log ++ [ending]) = writesOf output log ++ (ending.write? output).toList := by
  rw [writesOf, List.filterMap_append, ← writesOf]
  cases wrote : ending.write? output <;> simp [wrote]

namespace Traced

variable (begins : start.Begins codec.coding documents)

theorem perm {others : List Document} (traced : Traced start codec documents log build pending)
    (same : others.Perm pending) : Traced start codec documents log build others :=
  { traced with accounted := (same.append_left _).subperm.trans traced.accounted }

theorem member (traced : Traced start codec documents log build pending)
    (among : document ∈ pending) : document ∈ documents :=
  traced.accounted.subset (List.mem_append_right _ among)

theorem member_of_ended (traced : Traced start codec documents log build pending)
    (among : ending ∈ log) : ending.document ∈ documents :=
  traced.accounted.subset (List.mem_append_left _ (List.mem_map_of_mem among))

-- A turn that ends no document changes the session only.
theorem resettled {session : Session} (traced : Traced start codec documents log build pending)
    (settings : session.settings = build.session.settings)
    (stored : session.Obeys (start.Behind build.workspace)) :
    Traced start codec documents log { build with session } pending :=
  { traced with toFollows := traced.toFollows.resettled settings, stored }

include begins

theorem new_target (traced : Traced start codec documents log build (document :: pending))
    (same : ending.document = document) (item : Text × Text)
    (wrote : item ∈ (ending.write? start.output).toList) (other : Text × Text)
    (member : other ∈ writesOf start.output log) : placeOf item.1 ≠ placeOf other.1 := by
  rw [fst_of_write? (Option.mem_toList.1 wrote), same]
  exact begins.new_target traced.accounted other member

theorem onward {more : List (Text × Text)} (traced : Traced start codec documents log build pending)
    (late : Filled codec.coding more build.workspace workspace)
    (new : ∀ item ∈ more, ∀ other ∈ writesOf start.output log, placeOf item.1 ≠ placeOf other.1) :
    start.Onward build.workspace workspace :=
  fun _ _ straight => ReadsEither.mono begins.tree traced.filled late new straight

theorem known (traced : Traced start codec documents log build pending) :
    build.workspace.coding build.encoding = .ok codec.coding := by
  rw [traced.coding_eq, traced.encoding_eq, begins.known]

theorem takes (traced : Traced start codec documents log build (document :: pending))
    (takes : Takes ending build next) (same : ending.document = document)
    (made : ∀ code?, ending.outcome = .ok code? →
      Making start build.workspace ending.document ending.text (.finished (.ok code?))) :
    Traced start codec documents (log ++ [ending]) next pending ∧
      start.Onward build.workspace next.workspace := by
  have late : Filled codec.coding (ending.write? start.output).toList build.workspace next.workspace := by
    have wrote := takes.workspace
    rw [traced.output] at wrote
    have distinct : ((ending.write? start.output).toList.map fun item => placeOf item.1).Nodup := by
      cases ending.write? start.output <;> simp
    exact (Workspace.deposits traced.filled.tree (traced.known begins) distinct wrote).toFilled
  have new := traced.new_target begins same
  have onward := traced.onward begins late new
  refine ⟨⟨traced.toFollows.takes takes, ?_, ?_, ?_, ?_, ?_, ?_⟩, onward⟩
  next => rw [takes.report, traced.report, Report.ofLog_snoc]
  next =>
    rw [writesOf_snoc]
    exact traced.filled.trans late new
  next => simpa [same] using traced.accounted
  next =>
    obtain ⟨journal, session⟩ := takes.session
    rw [session]
    have stored := traced.stored.mono fun path text there straight =>
      onward path text straight (there straight)
    exact stored.of_journal journal
  next =>
    intro other among code? outcome
    have member : other.document ∈ documents := by
      rcases List.mem_append.1 among with old | fresh
      next => exact traced.member_of_ended old
      next =>
        rw [List.mem_singleton.1 fresh, same]
        exact traced.member List.mem_cons_self
    refine Making.mono begins member onward ?_
    rcases List.mem_append.1 among with old | fresh
    next => exact traced.ended other old code? outcome
    next =>
      rw [List.mem_singleton] at fresh
      subst fresh
      exact made code? outcome
  next =>
    rw [takes.fault]
    exact traced.encodable

-- A fault cuts a document off; directories may have been made for it.
theorem stops (traced : Traced start codec documents log build (document :: pending))
    (late : Filled codec.coding [] build.workspace workspace) (other : fault ≠ .unencodable) :
    Traced start codec documents log (({ build with workspace } : Build).stop fault) pending ∧
      start.Onward build.workspace workspace := by
  have onward := traced.onward begins late (by simp)
  refine ⟨⟨⟨traced.source, traced.output, traced.settings, late.machine.trans traced.machine⟩,
    traced.report, ?_, ?_, ?_, ?_, ?_⟩, onward⟩
  next =>
    have filled := traced.filled.trans late (by simp)
    rwa [List.append_nil] at filled
  next =>
    refine List.Subperm.trans (List.Sublist.subperm ?_) traced.accounted
    exact (List.sublist_cons_self document pending).append_left _
  next =>
    exact traced.stored.mono fun path text there straight => onward path text straight (there straight)
  next =>
    intro ending among code? outcome
    exact (traced.ended ending among code? outcome).mono begins (traced.member_of_ended among) onward
  next =>
    have encodable := traced.encodable
    cases earlier : build.fault? with
    | none => simpa [stop, earlier] using other
    | some first => simpa [stop, earlier] using encodable

end Traced

theorem filled_of_write_error {bytes : Bytes} (tree : build.workspace.IsTree)
    (known : build.workspace.coding build.encoding = .ok codec.coding)
    (encoded : codec.encode? text = some bytes)
    (failed : build.write document text = ({ build with workspace }, .error fault)) :
    Filled codec.coding [] build.workspace workspace ∧ fault ≠ .unencodable := by
  unfold write at failed
  cases directories : build.workspace.makeDirectories (Path.directory (build.targetPath document)) with
  | error cause =>
    simp only [directories, Prod.mk.injEq, Except.error.injEq] at failed
    obtain ⟨same, rfl⟩ := failed
    have here : build.workspace = workspace := congrArg Build.workspace same
    exact ⟨here ▸ .refl tree codec.coding, (isOfPath_of_makeDirectories directories).ne_unencodable⟩
  | ok made =>
    have furnished := furnished_makeDirectories tree directories
    cases wrote : made.writeText build.encoding (build.targetPath document) text with
    | mk after result =>
      simp only [directories, wrote, Prod.mk.injEq] at failed
      obtain ⟨same, rfl⟩ := failed
      have here : after = workspace := congrArg Build.workspace same
      have machine := machine_of_makeDirectories directories
      obtain ⟨rfl, ofPath⟩ := eq_of_writeText_error furnished.tree
        ((coding_of_machine machine build.encoding).trans known)
        (Codec.encode_coding_iff.2 encoded) wrote
      exact ⟨here ▸ furnished.filled machine codec.coding, ofPath.ne_unencodable⟩

def Goes (start : Build) (codec : Codec) (documents pending : List Document) (before : Workspace)
    (outcome : Build × Option OpenDocument) : Prop :=
  ∃ log, Traced start codec documents log outcome.1 (outcome.2.toList.map (·.document) ++ pending) ∧
    (∀ task ∈ outcome.2.toList,
      Making start outcome.1.workspace task.document task.text task.job) ∧
    start.Onward before outcome.1.workspace

section Course

variable (begins : start.Begins codec.coding documents)

include begins

theorem goes_conclude (traced : Traced start codec documents log build (document :: pending))
    (making : ∀ code?, result = .ok code? →
      Making start build.workspace document text (.finished (.ok code?))) :
    Goes start codec documents pending build.workspace
      (build.conclude document text result, none) := by
  rcases conclude_cases build document text result with
    takes | ⟨code?, workspace, fault, rfl, -, failed, stopped⟩
  next =>
    obtain ⟨traced', onward⟩ := traced.takes begins takes rfl fun code? outcome =>
      making code? (by cases result <;> simp_all [endingOf, Except.mapError])
    exact ⟨_, traced', by simp, onward⟩
  next =>
    have returns := (making code? rfl).returns begins.known traced.machine
    obtain ⟨bytes, encoded⟩ := Codec.exists_encode fun c member => (returns c member).1
    obtain ⟨filled, other⟩ := filled_of_write_error traced.filled.tree (traced.known begins)
      encoded failed
    obtain ⟨traced', onward⟩ := traced.stops begins filled other
    rw [stopped]
    exact ⟨log, traced', by simp, onward⟩

theorem goes_turn (traced : Traced start codec documents log build (task.document :: pending))
    (making : Making start build.workspace task.document task.text task.job) :
    Goes start codec documents pending build.workspace (build.turn task) := by
  have made := making.turn traced.toFollows traced.stored
  have stored := Session.obeys_turn (obeys_reader traced.toFollows) (build.identity task.document)
    task.job traced.stored
  have settings := Session.settings_turn build.reader (build.identity task.document) build.session
    task.job
  have settled := traced.resettled settings stored
  rcases turn_cases build task with ⟨-, turned⟩ | ⟨result, finished, turned⟩
  next =>
    rw [turned]
    exact ⟨log, settled, by simpa using made, fun _ _ _ there => there⟩
  next =>
    rw [turned]
    rw [finished] at made
    exact goes_conclude begins settled fun code? same => same ▸ made

theorem goes_start (traced : Traced start codec documents log build (document :: pending)) :
    Goes start codec documents pending build.workspace (build.start document) := by
  have path := traced.sourcePath_eq document
  rcases start_cases build document with
    ⟨text, read, begun⟩ | ⟨fault, -, -, begun⟩ | ⟨fault, failed, -, begun⟩
  next =>
    rw [begun]
    have read' : start.Finds build.workspace (start.sourcePath document) text := by
      rw [path, reader, traced.encoding_eq] at read
      exact .inr read
    have making : Making start build.workspace document text (build.firstJob document text) := by
      rw [begins.firstJob_eq traced.toFollows (traced.member List.mem_cons_self)]
      exact .of_read read'
    have opened : Traced start codec documents log build
        ((⟨document, text, build.firstJob document text⟩ : OpenDocument).document :: pending) := traced
    exact goes_turn begins opened making
  next =>
    rw [begun]
    obtain ⟨traced', onward⟩ := traced.takes begins
      (takes_fail build document ⟨fault.message, fault.code, []⟩) rfl (by rintro _ ⟨⟩)
    exact ⟨_, traced', by simp, onward⟩
  next =>
    rw [begun]
    obtain ⟨traced', onward⟩ := traced.stops begins (.refl traced.filled.tree codec.coding)
      (readText_ne_unencodable failed)
    exact ⟨log, traced', by simp, onward⟩

def Runs (start : Build) (codec : Codec) (documents : List Document) (build : Build)
    (opened : List OpenDocument) (rest : List Document) : Prop :=
  ∃ log, Traced start codec documents log build (opened.map (·.document) ++ rest) ∧
    ∀ task ∈ opened, Making start build.workspace task.document task.text task.job

theorem Goes.runs {others opened : List OpenDocument} {rest : List Document}
    {outcome : Build × Option OpenDocument} (order : opened.Perm (outcome.2.toList ++ others))
    (members : ∀ task ∈ others, task.document ∈ documents)
    (going : ∀ task ∈ others, Making start build.workspace task.document task.text task.job)
    (goes : Goes start codec documents (others.map (·.document) ++ rest) build.workspace outcome) :
    Runs start codec documents outcome.1 opened rest := by
  obtain ⟨log, traced, made, onward⟩ := goes
  refine ⟨log, traced.perm ?_, ?_⟩
  next =>
    rw [← List.append_assoc, ← List.map_append]
    exact (order.map _).append_right rest
  next =>
    intro task member
    rcases List.mem_append.1 (order.subset member) with here | other
    next => exact made task here
    next => exact (going task other).mono begins (members task other) onward

theorem runs_run (idle : start.report = {}) (empty : start.session.store = {})
    (calm : start.fault? = none) :
    ∃ opened, Runs start codec documents (start.run documents) opened [] := by
  have initial : Runs start codec documents start [] documents := by
    refine ⟨[], ⟨.refl start, idle, .refl begins.tree codec.coding, List.Subperm.refl documents,
      .of_empty empty _, by simp, by simp [calm]⟩, by simp⟩
  have ends : Rests (Runs start codec documents) (start.run documents) := by
    refine (run_induction ?_ ?_ initial).1
    next =>
      rintro build opened document rest ⟨log, traced, going⟩
      have member (task : OpenDocument) (among : task ∈ opened) : task.document ∈ documents :=
        traced.member (List.mem_append_left _ (List.mem_map_of_mem among))
      exact (goes_start begins (traced.perm List.perm_middle.symm)).runs begins
        List.perm_append_comm member going
    next =>
      rintro build before task after ⟨log, traced, going⟩
      have order : (before ++ task :: after).Perm (task :: (before ++ after)) := List.perm_middle
      have member (other : OpenDocument) (among : other ∈ before ++ after) :
          other.document ∈ documents := by
        refine traced.member (List.mem_append_left _ (List.mem_map_of_mem ?_))
        exact order.symm.subset (List.mem_cons_of_mem _ among)
      have first := traced.perm ((order.map (·.document)).append_right []).symm
      refine (goes_turn begins first (going task (by simp))).runs begins ?_ member ?_
      next => exact List.perm_append_comm_assoc _ _ _
      next => exact fun other among => going other (order.symm.subset (List.mem_cons_of_mem _ among))
  obtain ⟨opened, runs, -⟩ := ends
  exact ⟨opened, runs⟩

end Course

theorem Traced.making {relative : Text} (begins : start.Begins codec.coding documents)
    (traced : Traced start codec documents log build pending)
    (ended : ∃ ending ∈ log, ending.document.relative = relative ∧ ending.outcome = .ok code?) :
    ∃ document ∈ documents, document.relative = relative ∧ ∃ text,
      Making start build.workspace document text (.finished (.ok code?)) ∧
      build.workspace.Holds codec start.encoding (Path.joinTexts start.output relative)
        (code?.getD text) := by
  obtain ⟨ending, among, rfl, outcome⟩ := ended
  have making := traced.ended ending among code? outcome
  have wrote : (Path.joinTexts start.output ending.document.relative, code?.getD ending.text) ∈
      writesOf start.output log :=
    List.mem_filterMap.2 ⟨ending, among, by rw [Ending.write?, outcome]⟩
  exact ⟨ending.document, traced.member_of_ended among, rfl, ending.text, making,
    traced.filled.holds begins.known making.read.legible wrote
      (making.returns begins.known traced.machine)⟩

end Build

section Tree

variable {workspace : Workspace} {session : Session} {codec : Codec} {source output : Text}
variable {report : Report}

theorem exists_traced_of_report (tree : workspace.IsTree)
    (known : Codec.ofName? session.settings.encoding = some codec)
    (built : (buildTree workspace session source output).2.2 = .ok report) :
    let start : Build := { source, output, workspace, session := session.reset }
    ∃ documents log build pending, start.Begins codec.coding documents ∧
      start.Traced codec documents log build pending ∧ build.report = report ∧
      (buildTree workspace session source output).1 = build.workspace := by
  intro start
  obtain ⟨documents, found, -, -, reported, same⟩ := exists_run_of_report built
  have begins : start.Begins codec.coding documents := ⟨tree, coding_of_ofName? known, found⟩
  obtain ⟨opened, log, traced, -⟩ := Build.runs_run begins rfl rfl rfl
  exact ⟨documents, log, start.run documents, _, begins, traced, reported, same⟩

theorem hasDirectory_ne_unencodable {path : Text} {fault : FileFault}
    (failed : workspace.hasDirectory path = .error fault) : fault ≠ .unencodable := by
  unfold hasDirectory at failed
  split at failed
  next => cases failed
  next =>
    cases failed
    simp
  next => cases failed

theorem outcome_ne_unencodable (tree : workspace.IsTree)
    (known : Codec.ofName? session.settings.encoding = some codec) (source output : Text) :
    (buildTree workspace session source output).2.2 ≠ .error (.file .unencodable) := by
  cases found : discover? workspace source session.settings.hostSuffix with
  | none =>
    have found' : discover? workspace source session.reset.settings.hostSuffix = none := found
    simp [buildTree, found']
  | some documents =>
    cases located : workspace.hasDirectory source with
    | error fault =>
      have found' : discover? workspace source session.reset.settings.hostSuffix = some documents :=
        found
      simpa [buildTree, found', located] using hasDirectory_ne_unencodable located
    | ok isThere =>
      rw [buildTree_of_discover found located]
      let start : Build := { source, output, workspace, session := session.reset }
      have begins : start.Begins codec.coding documents := ⟨tree, coding_of_ofName? known, found⟩
      obtain ⟨opened, log, traced, -⟩ := Build.runs_run begins rfl rfl rfl
      have encodable : (start.run documents).fault? ≠ some .unencodable := traced.encodable
      change (start.run documents).outcome ≠ _
      unfold Build.outcome
      split
      next fault faulty =>
        rw [faulty] at encodable
        simpa using encodable
      next => simp

/-- A build writes what it has transformed or passed on without loss. Each character of a result was
read with the encoding of the build or is one that merging puts in, so no build ends because a
character cannot be written; and what was written is read again as it was. -/
theorem buildTree_lossless (tree : workspace.IsTree) (session : Session)
    (known : Codec.ofName? session.settings.encoding = some codec) (source output : Text) :
    let built := buildTree workspace session source output
    let identity (relative : Text) := Path.actual (Path.joinTexts source relative)
    let imports (relative text : Text) :=
      Import.scan session.settings.blockSuffix (identity relative) text
    let finds := ReadsEither session.settings.encoding workspace built.1
    built.2.2 ≠ .error (.file .unencodable) ∧
    ∀ report, built.2.2 = .ok report →
      (∀ relative ∈ report.transformed, ∃ text code,
        finds (Path.joinTexts source relative) text ∧
        Job.Becomes (identity relative) (.ready text (imports relative text))
          (.finished (.ok (some code))) ∧
        (∀ c ∈ code, Sourced finds (imports relative text) text c) ∧
        built.1.Holds codec session.settings.encoding (Path.joinTexts output relative) code) ∧
      (∀ relative ∈ report.unchanged, ∃ text,
        finds (Path.joinTexts source relative) text ∧
        Job.Becomes (identity relative) (.ready text (imports relative text))
          (.finished (.ok none)) ∧
        built.1.Holds codec session.settings.encoding (Path.joinTexts output relative) text) := by
  intro built identity imports finds
  refine ⟨outcome_ne_unencodable tree known source output, fun report reported => ?_⟩
  obtain ⟨documents, log, build, pending, begins, traced, rfl, same⟩ :=
    exists_traced_of_report tree known reported
  have after : built.1 = build.workspace := same
  have finds' : finds = ReadsEither session.settings.encoding workspace build.workspace :=
    congrArg (ReadsEither session.settings.encoding workspace) same
  rw [finds', after, traced.report]
  constructor
  next =>
    intro relative member
    obtain ⟨ending, among, named, code, outcome⟩ := Report.mem_transformed.1 member
    obtain ⟨document, -, rfl, text, making, holds⟩ :=
      traced.making begins ⟨ending, among, named, outcome⟩
    exact ⟨text, code, making.read, making.becomes, making.within code rfl, holds⟩
  next =>
    intro relative member
    obtain ⟨document, -, rfl, text, making, holds⟩ :=
      traced.making begins (Report.mem_unchanged.1 member)
    exact ⟨text, making.read, making.becomes, holds⟩

end Tree

def accentedFiles : List (Text × Bytes) :=
  [("Page.svelte", "import A from \"./a.svelte.xblock\";\r\n<A/>é"),
    ("a.svelte.xblock", "<p>è</p>")].map fun (name, text) =>
      (name.toList, text.toList.map fun c => c.toNat.toUInt8)

def accentedPage : Workspace :=
  ofSources accentedFiles

def latinSession : Session where
  settings := { encoding := "latin-1".toList }

theorem isTree_accentedPage : accentedPage.IsTree :=
  isTree_ofSources (by decide) (by decide)

theorem buildTree_lossless_of_accents :
    (buildTree accentedPage latinSession "/src".toList "/out".toList).2.2 ≠
      .error (.file .unencodable) ∧
    ∃ report code, (buildTree accentedPage latinSession "/src".toList "/out".toList).2.2 = .ok report ∧
      report.transformed = ["Page.svelte".toList] ∧
      (buildTree accentedPage latinSession "/src".toList "/out".toList).1.Holds .latin1
        "latin-1".toList "/out/Page.svelte".toList code := by
  have found : discover? accentedPage "/src".toList ".svelte".toList =
      some (documentsOf ["Page.svelte".toList]) :=
    discover_ofSources (by decide +kernel) (by decide +kernel)
  -- The page waits once for its block, so it is there after one round.
  let started := Build.ofSources accentedFiles latinSession "/out".toList
  let ended := started.after 1 (documentsOf ["Page.svelte".toList])
  have course : started.isDoneAfter 1 (documentsOf ["Page.svelte".toList]) = true ∧
      ended.report.transformed = ["Page.svelte".toList] := by decide +kernel
  have reported : (buildTree accentedPage latinSession "/src".toList "/out".toList).2.2 =
      .ok ended.report := by
    rw [accentedPage, buildTree_ofSources "/out".toList rfl found course.1]
  have known : Codec.ofName? latinSession.settings.encoding = some .latin1 := by decide +kernel
  obtain ⟨encodable, lossless⟩ :=
    buildTree_lossless isTree_accentedPage latinSession known "/src".toList "/out".toList
  obtain ⟨text, code, -, -, -, holds⟩ :=
    (lossless ended.report reported).1 "Page.svelte".toList (by rw [course.2]; decide)
  exact ⟨encodable, ended.report, code, reported, course.2, holds⟩

end Inlay
