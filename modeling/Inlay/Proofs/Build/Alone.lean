import Inlay.Proofs.Build.Record
import Inlay.Proofs.Import.Resolution
import Inlay.Proofs.Session.Alone

set_option autoImplicit false

namespace Inlay

open Text Workspace

def Workspace.Spares (workspace : Workspace) (settings : Settings) (source output : Text) : Prop :=
  ∀ documents, discover? workspace source settings.hostSuffix = some documents →
    ∀ document ∈ documents, ∀ text,
      (workspace.reader settings.encoding).read (Path.joinTexts source document.relative) = .ok text →
      ∀ reference ∈ Import.scan settings.blockSuffix
          (Path.actual (Path.joinTexts source document.relative)) text,
        ¬ placeOf output <+: placeOf reference.path

namespace Build

variable {start build next : Build} {alone : Session} {document : Document} {coding : Coding}
variable {documents pending : List Document} {log : List Ending} {ending : Ending}
variable {opened : List OpenDocument} {task : OpenDocument} {path text : Text}

namespace Logged

variable (logged : Logged start documents log build pending) (begins : start.Begins coding documents)

include logged begins

theorem agreesAt (below : ¬ placeOf start.output <+: placeOf path)
    (straight : start.workspace.Straight path) : start.reader.AgreesAt build.reader path := by
  have done := logged.deposits begins
  have same (bytes : Bytes) :
      build.workspace.read path path = .ok bytes ↔ start.workspace.read path path = .ok bytes :=
    done.read_iff begins.tree (begins.outside (fun _ => logged.mem_documents) below) straight
  unfold Reader.AgreesAt Build.reader
  rw [logged.encoding_eq]
  exact toOption_readText_congr done.machine start.encoding same

theorem agreesAt_block {reference : Import} {suffix id : Text}
    (imported : reference ∈ Import.scan suffix id text)
    (below : ¬ placeOf start.output <+: placeOf reference.path) :
    start.reader.AgreesAt build.reader reference.path := by
  exact logged.agreesAt begins below (Import.straight_of_mem_scan start.workspace imported)

theorem agreesAt_source (member : document ∈ documents)
    (apart : ¬ placeOf start.source <+: placeOf start.output)
    (apart' : ¬ placeOf start.output <+: placeOf start.source) :
    start.reader.AgreesAt build.reader (start.sourcePath document) := by
  exact logged.agreesAt begins (begins.apart_sourcePath member apart apart')
    (begins.straight_sourcePath member)

theorem read_source (member : document ∈ documents)
    (apart : ¬ placeOf start.source <+: placeOf start.output)
    (apart' : ¬ placeOf start.output <+: placeOf start.source)
    (read : build.reader.read (build.sourcePath document) = .ok text) :
    start.reader.read (start.sourcePath document) = .ok text := by
  have agrees := logged.agreesAt_source begins member apart apart'
  rw [logged.sourcePath_eq] at read
  rw [Reader.AgreesAt, read] at agrees
  cases known : start.reader.read (start.sourcePath document) with
  | error fault => simp [known, Except.toOption] at agrees
  | ok found => simpa [known, Except.toOption, eq_comm] using agrees

end Logged

def AnswersAlone (start : Build) (alone : Session) (document : Document) (text : Text)
    (result : Except Failure (Option Text)) : Prop :=
  start.reader.read (start.sourcePath document) = .ok text ∧
    (alone.transform start.reader (start.identity document) text).2 = result

-- The kinds of failure that a document has on its own account.
def IsOwnCode (code : Text) : Prop :=
  code = "BlockReadError".toList ∨ code = "VariableConflictError".toList

instance : DecidablePred IsOwnCode :=
  fun _ => inferInstanceAs (Decidable (_ ∨ _))

def Faithful (start : Build) (alone : Session) (ending : Ending) : Prop :=
  (∃ result, AnswersAlone start alone ending.document ending.text result ∧
    ending = endingOf ending.document ending.text result) ∨
  ∃ payload, ending.outcome = .error payload ∧ ¬ IsOwnCode payload.code

structure Underway (start : Build) (alone : Session) (documents : List Document) (shared : Session)
    (task : OpenDocument) : Prop where
  member : task.document ∈ documents
  read : start.reader.read (start.sourcePath task.document) = .ok task.text
  heads : ∃ later, Session.Heads start.reader (start.identity task.document) shared task.job
    ⟨(alone.transform start.reader (start.identity task.document) task.text).2, later⟩
  imports : task.job.remaining ⊆
    Import.scan start.session.settings.blockSuffix (start.identity task.document) task.text

theorem Underway.mono {shared later : Session}
    (underway : Underway start alone documents shared task) (offers : shared.Offers later) :
    Underway start alone documents later task := by
  obtain ⟨member, read, ⟨records, heads⟩, imports⟩ := underway
  exact ⟨member, read, ⟨records, heads.mono offers⟩, imports⟩

def separate (start : Build) (alone : Session) (documents : List Document) : Regime where
  shared := alone.Offers
  ended := Faithful start alone
  going := Underway start alone documents

theorem Faithful.of_ok {code? : Option Text} (faithful : Faithful start alone ending)
    (outcome : ending.outcome = .ok code?) :
    AnswersAlone start alone ending.document ending.text (.ok code?) := by
  rcases faithful with ⟨result, answers, shape⟩ | ⟨payload, failed, -⟩
  next =>
    rw [shape, endingOf] at outcome
    cases result with
    | error failure => cases outcome
    | ok found => cases outcome; exact answers
  next => simp [failed] at outcome

theorem Faithful.of_error {payload : Payload} (faithful : Faithful start alone ending)
    (outcome : ending.outcome = .error payload) (own : IsOwnCode payload.code) :
    ∃ failure, AnswersAlone start alone ending.document ending.text (.error failure) ∧
      failure.payload = payload := by
  rcases faithful with ⟨result, answers, shape⟩ | ⟨payload', failed, other⟩
  next =>
    rw [shape, endingOf] at outcome
    cases result with
    | error failure => cases outcome; exact ⟨failure, answers, rfl⟩
    | ok found => cases outcome
  next =>
    rw [failed] at outcome
    cases outcome
    exact absurd own other

theorem not_isOwnCode_of_refused {result : Except Failure (Option Text)} (refused : Refused result) :
    ∃ payload, result.mapError Failure.payload = .error payload ∧ ¬ IsOwnCode payload.code := by
  obtain ⟨failure, rfl, reuse⟩ := refused
  refine ⟨failure.payload, rfl, ?_⟩
  cases failure with
  | reused shown current earlier usages =>
    change ¬ IsOwnCode "DuplicateUsageError".toList
    decide
  | unreadable => cases reuse
  | clash => cases reuse
  | invalidConfig => cases reuse
  | notMapping => cases reuse

theorem not_isOwnCode_of_fault (fault : FileFault) : ¬ IsOwnCode fault.code := by
  have others : ∀ code ∈ (["FileNotFoundError", "FileExistsError", "NotADirectoryError",
      "IsADirectoryError", "OSError", "ValueError", "UnicodeDecodeError", "UnicodeEncodeError",
      "UnicodeError", "LookupError"] : List String), ¬ IsOwnCode code.toList := by decide
  cases fault with
  | missing => exact others "FileNotFoundError" (by decide)
  | occupied => exact others "FileExistsError" (by decide)
  | notDirectory => exact others "NotADirectoryError" (by decide)
  | isDirectory => exact others "IsADirectoryError" (by decide)
  | nameTooLong => exact others "OSError" (by decide)
  | nullCharacter => exact others "ValueError" (by decide)
  | undecodable => exact others "UnicodeDecodeError" (by decide)
  | unencodable => exact others "UnicodeEncodeError" (by decide)
  | refused => exact others "UnicodeError" (by decide)
  | unknownEncoding => exact others "LookupError" (by decide)
  | binaryEncoding => exact others "LookupError" (by decide)

theorem Takes.offers (takes : Takes ending build next) : build.session.Offers next.session := by
  obtain ⟨journal, same⟩ := takes.session
  rw [same]
  exact ⟨rfl, fun _ fresh => fresh, fun _ _ => rfl⟩

section Course

variable (begins : start.Begins coding documents)
variable (apart : ¬ placeOf start.source <+: placeOf start.output)
variable (apart' : ¬ placeOf start.output <+: placeOf start.source)
variable (spares : start.workspace.Spares start.session.settings start.source start.output)

include begins spares

theorem Underway.moves (logged : Logged start documents log build (task.document :: pending))
    (offers : alone.Offers build.session)
    (underway : Underway start alone documents build.session task)
    (quiet : (build.turn task).1.fault? = none) :
    Moves (separate start alone documents) start documents log pending task.document build.session
      (build.turn task) := by
  obtain ⟨member, read, ⟨later, heads⟩, imports⟩ := underway
  have same := logged.identity_eq task.document
  have agrees : ∀ reference ∈ task.job.remaining,
      start.reader.AgreesAt build.reader reference.path := by
    intro reference inside
    have below := spares documents begins.found task.document member task.text read reference
      (imports inside)
    exact logged.agreesAt_block begins (imports inside) below
  obtain ⟨onward, goes⟩ := heads.turn agrees
  have fewer := Session.remaining_turn build.reader (start.identity task.document) build.session
    task.job
  have settled := logged.resettled onward.settings.symm
  rcases turn_cases build task with ⟨running, turned⟩ | ⟨result, finished, turned⟩
  next =>
    rw [same] at running turned
    rw [turned]
    refine ⟨offers.trans onward, fun _ others => others.mono onward, .inr ⟨_, rfl, rfl, ?_, settled⟩⟩
    refine ⟨member, read, ?_, List.Subset.trans fewer imports⟩
    rcases goes with ⟨result, ended, -⟩ | ⟨-, records, -, -, along⟩
    next => simp [ended, Job.isFinished] at running
    next => exact ⟨records, along⟩
  next =>
    rw [same] at finished turned
    rw [turned] at quiet ⊢
    have takes := (takes_conclude _ task.document task.text result).resolve_right
      fun failed => failed.2 quiet
    have further := onward.trans takes.offers
    refine ⟨offers.trans further, fun _ others => others.mono further,
      .inl ⟨rfl, _, ?_, settled.takes takes⟩⟩
    rw [finished] at goes
    rcases goes with ⟨other, ended, refused⟩ | ⟨-, records, -, -, along⟩
    next =>
      cases ended
      exact .inr (not_isOwnCode_of_refused refused)
    next =>
      have answer := congrArg Session.Prospect.answer along.of_finished
      exact .inl ⟨result, ⟨read, answer⟩, rfl⟩

include apart apart'

theorem Logged.start_moves
    (logged : Logged start documents log build (document :: pending))
    (offers : alone.Offers build.session) (quiet : (build.start document).1.fault? = none) :
    Moves (separate start alone documents) start documents log pending document build.session
      (build.start document) := by
  have member : document ∈ documents := logged.mem_of_pending List.mem_cons_self
  rcases start_cases build document with
    ⟨text, read, begun⟩ | ⟨fault, -, -, begun⟩ | ⟨fault, -, -, begun⟩
  next =>
    have read' := logged.read_source begins member apart apart' read
    have underway : Underway start alone documents build.session
        ⟨document, text, build.firstJob document text⟩ := by
      have settings := offers.settings.trans logged.settings
      have heads := Session.heads_ready offers start.reader (start.identity document) text
      rw [settings, ← begins.firstJob_eq logged.toFollows member text] at heads
      refine ⟨member, read', ⟨_, heads⟩, ?_⟩
      rw [begins.firstJob_eq logged.toFollows member text]
      exact List.Subset.refl _
    rw [begun] at quiet ⊢
    exact underway.moves begins spares logged offers quiet
  next =>
    rw [begun]
    have takes := takes_fail build document ⟨fault.message, fault.code, []⟩
    exact ⟨offers.trans takes.offers, fun _ others => others.mono takes.offers,
      .inl ⟨rfl, _, .inr ⟨_, rfl, not_isOwnCode_of_fault fault⟩, logged.takes takes⟩⟩
  next =>
    rw [begun] at quiet
    exact absurd quiet (fault_stop build fault)

theorem separate_run (fresh : alone.Offers start.session) (idle : start.report = {})
    (quiet : (start.run documents).fault? = none) :
    ∃ log, Keeps (separate start alone documents) start documents (start.run documents) [] [] log :=
  Keeps.run_of_quiet idle fresh
    (fun _ _ _ _ logged offers quiet => logged.start_moves begins apart apart' spares offers quiet)
    (fun _ _ _ _ logged offers underway quiet => underway.moves begins spares logged offers quiet)
    quiet

end Course
end Build

/-- What a build does with a document is what a session of its own does with it, whatever happened
in the build's session before. -/
theorem buildTree_as_alone {workspace : Workspace} (tree : workspace.IsTree) (session : Session)
    {codec : Codec} (known : Codec.ofName? session.settings.encoding = some codec)
    {source output : Text} (apart : ¬ placeOf source <+: placeOf output)
    (apart' : ¬ placeOf output <+: placeOf source)
    (spares : workspace.Spares session.settings source output) {report : Report}
    (built : (buildTree workspace session source output).2.2 = .ok report) :
    let after := (buildTree workspace session source output).1
    let reader := workspace.reader session.settings.encoding
    let fresh : Session := { settings := session.settings }
    let answer (relative text : Text) :=
      (fresh.transform reader (Path.actual (Path.joinTexts source relative)) text).2
    (∀ relative ∈ report.transformed, ∃ text code bytes,
      reader.read (Path.joinTexts source relative) = .ok text ∧
      answer relative text = .ok (some code) ∧ codec.encode? code = some bytes ∧
      after.get? (placeOf (Path.joinTexts output relative)) = some (.file bytes)) ∧
    (∀ relative ∈ report.unchanged, ∃ text bytes,
      reader.read (Path.joinTexts source relative) = .ok text ∧
      answer relative text = .ok none ∧ codec.encode? text = some bytes ∧
      after.get? (placeOf (Path.joinTexts output relative)) = some (.file bytes)) ∧
    (∀ relative payload, (relative, payload) ∈ report.failed →
      payload.code = "BlockReadError".toList ∨ payload.code = "VariableConflictError".toList →
      ∃ text failure, reader.read (Path.joinTexts source relative) = .ok text ∧
        answer relative text = .error failure ∧ failure.payload = payload) := by
  intro after reader fresh answer
  obtain ⟨documents, found, -, quiet, rfl, same⟩ := exists_run_of_report built
  let start : Build := { source, output, workspace, session := session.reset }
  have begins : start.Begins codec.coding documents := ⟨tree, coding_of_ofName? known, found⟩
  have offers : fresh.Offers start.session := ⟨rfl, fun _ free => free, fun _ _ => rfl⟩
  obtain ⟨log, keeps⟩ := Build.separate_run begins apart apart' spares offers rfl quiet
  have logged := keeps.logged
  have same' : (start.run documents).workspace = after := same.symm
  rw [logged.report]
  refine ⟨?_, ?_, ?_⟩
  next =>
    intro relative member
    obtain ⟨ending, among, rfl, code, outcome⟩ := Report.mem_transformed.1 member
    obtain ⟨read, answers⟩ := (keeps.ended ending among).of_ok outcome
    obtain ⟨bytes, encoded, wrote⟩ := logged.exists_written begins among outcome
    exact ⟨ending.text, code, bytes, read, answers, Codec.encode_coding_iff.1 encoded,
      same' ▸ wrote⟩
  next =>
    intro relative member
    obtain ⟨ending, among, rfl, outcome⟩ := Report.mem_unchanged.1 member
    obtain ⟨read, answers⟩ := (keeps.ended ending among).of_ok outcome
    obtain ⟨bytes, encoded, wrote⟩ := logged.exists_written begins among outcome
    exact ⟨ending.text, bytes, read, answers, Codec.encode_coding_iff.1 encoded, same' ▸ wrote⟩
  next =>
    intro relative payload member own
    obtain ⟨ending, among, rfl, outcome⟩ := Report.mem_failed.1 member
    obtain ⟨failure, ⟨read, answers⟩, shown⟩ := (keeps.ended ending among).of_error outcome own
    exact ⟨ending.text, failure, read, answers, shown⟩

theorem Workspace.Spares.of_discover {workspace : Workspace} {settings : Settings}
    {source output : Text} {documents : List Document}
    (found : discover? workspace source settings.hostSuffix = some documents)
    (spared : ∀ document ∈ documents,
      ∀ text ∈ ((workspace.reader settings.encoding).read
        (Path.joinTexts source document.relative)).toOption,
      ∀ reference ∈ Import.scan settings.blockSuffix
          (Path.actual (Path.joinTexts source document.relative)) text,
        ¬ placeOf output <+: placeOf reference.path) :
    workspace.Spares settings source output := by
  intro documents' found' document member text read
  cases found.symm.trans found'
  refine spared document member text ?_
  rw [read]
  rfl

-- Two pages want one block, one page wants a block that is missing, and one page wants none. When
-- the tree was built before, the block was another one and none was missing.
def sharedSources : List (Text × Bytes) :=
  [("A.svelte", "import X from \"./x.svelte.xblock\";<X/>"),
    ("B.svelte", "import X from \"./x.svelte.xblock\";<X/>"),
    ("C.svelte", "import M from \"./m.svelte.xblock\";<M/>"), ("D.svelte", "<p/>"),
    ("x.svelte.xblock", "<q/>")].map fun (name, text) =>
      (name.toList, Utf8.encode text.toList)

def earlierSources : List (Text × Bytes) :=
  [("A.svelte", "import X from \"./x.svelte.xblock\";<X/>"),
    ("C.svelte", "import M from \"./m.svelte.xblock\";<M/>"), ("m.svelte.xblock", "<m/>"),
    ("x.svelte.xblock", "<old/>")].map fun (name, text) =>
      (name.toList, Utf8.encode text.toList)

def sharedNames : List Text :=
  ["A.svelte".toList, "B.svelte".toList, "C.svelte".toList, "D.svelte".toList]

def earlierNames : List Text :=
  ["A.svelte".toList, "C.svelte".toList]

-- The session that the earlier build leaves behind.
def usedSession : Session :=
  ((Build.ofSources earlierSources {} "/out".toList).after 1 (documentsOf earlierNames)).session

theorem discover_sharedSources :
    discover? (ofSources sharedSources) "/src".toList ".svelte".toList =
      some (documentsOf sharedNames) :=
  discover_ofSources (by decide) (by decide)

theorem buildTree_earlierSources :
    (buildTree (ofSources earlierSources) {} "/src".toList "/out".toList).2.1 = usedSession ∧
      usedSession.settings = {} ∧
      usedSession.ledger.paths = ["/src/x.svelte.xblock".toList, "/src/m.svelte.xblock".toList] ∧
      usedSession.store.knows "/src/m.svelte.xblock".toList = true := by
  have found : discover? (ofSources earlierSources) "/src".toList ".svelte".toList =
      some (documentsOf earlierNames) := discover_ofSources (by decide +kernel) (by decide +kernel)
  have course : (Build.ofSources earlierSources {} "/out".toList).isDoneAfter 1
        (documentsOf earlierNames) = true ∧ usedSession.settings = {} ∧
      usedSession.ledger.paths = ["/src/x.svelte.xblock".toList, "/src/m.svelte.xblock".toList] ∧
      usedSession.store.knows "/src/m.svelte.xblock".toList = true := by decide +kernel
  rw [buildTree_ofSources "/out".toList rfl found course.1]
  exact ⟨rfl, course.2⟩

theorem buildTree_sharedSources : ∃ report,
    (buildTree (ofSources sharedSources) usedSession "/src".toList "/out".toList).2.2 = .ok report ∧
      report.transformed = ["A.svelte".toList] ∧ report.unchanged = ["D.svelte".toList] ∧
      (report.failed.map fun (relative, payload) => (relative, payload.code)) =
        [("B.svelte".toList, "DuplicateUsageError".toList),
          ("C.svelte".toList, "BlockReadError".toList)] := by
  obtain ⟨-, settings, -, -⟩ := buildTree_earlierSources
  let ended := (Build.ofSources sharedSources usedSession "/out".toList).after 1
    (documentsOf sharedNames)
  have course : (Build.ofSources sharedSources usedSession "/out".toList).isDoneAfter 1
        (documentsOf sharedNames) = true ∧
      ended.report.transformed = ["A.svelte".toList] ∧
      ended.report.unchanged = ["D.svelte".toList] ∧
      (ended.report.failed.map fun (relative, payload) => (relative, payload.code)) =
        [("B.svelte".toList, "DuplicateUsageError".toList),
          ("C.svelte".toList, "BlockReadError".toList)] := by decide +kernel
  rw [buildTree_ofSources "/out".toList (by rw [settings]) discover_sharedSources course.1]
  exact ⟨ended.report, rfl, course.2⟩

theorem buildTree_as_alone_of_shared_block :
    let reader := (ofSources sharedSources).reader "utf-8".toList
    let answer (relative text : Text) :=
      (({} : Session).transform reader (Path.actual (Path.joinTexts "/src".toList relative)) text).2
    let session := (buildTree (ofSources earlierSources) {} "/src".toList "/out".toList).2.1
    let built := buildTree (ofSources sharedSources) session "/src".toList "/out".toList
    session.ledger.paths = ["/src/x.svelte.xblock".toList, "/src/m.svelte.xblock".toList] ∧
    session.store.knows "/src/m.svelte.xblock".toList = true ∧
    ∃ report, built.2.2 = .ok report ∧
      (report.failed.map fun (relative, payload) => (relative, payload.code)) =
        [("B.svelte".toList, "DuplicateUsageError".toList),
          ("C.svelte".toList, "BlockReadError".toList)] ∧
      (∃ text code bytes, reader.read "/src/A.svelte".toList = .ok text ∧
        answer "A.svelte".toList text = .ok (some code) ∧ Codec.utf8.encode? code = some bytes ∧
        built.1.get? ["out".toList, "A.svelte".toList] = some (.file bytes)) ∧
      (∃ text bytes, reader.read "/src/D.svelte".toList = .ok text ∧
        answer "D.svelte".toList text = .ok none ∧ Codec.utf8.encode? text = some bytes ∧
        built.1.get? ["out".toList, "D.svelte".toList] = some (.file bytes)) ∧
      ∃ text failure, reader.read "/src/C.svelte".toList = .ok text ∧
        answer "C.svelte".toList text = .error failure ∧
        ("C.svelte".toList, failure.payload) ∈ report.failed := by
  intro reader answer session built
  obtain ⟨left, settings, claimed, stored⟩ := buildTree_earlierSources
  obtain ⟨report, reported, transformed, unchanged, failed⟩ := buildTree_sharedSources
  have tree : (ofSources sharedSources).IsTree := isTree_ofSources (by decide +kernel) (by decide +kernel)
  have spares : (ofSources sharedSources).Spares usedSession.settings "/src".toList "/out".toList := by
    rw [settings]
    exact .of_discover discover_sharedSources (by decide +kernel)
  have known : Codec.ofName? usedSession.settings.encoding = some .utf8 := by
    rw [settings]
    decide +kernel
  obtain ⟨whole, passed, own⟩ := buildTree_as_alone tree usedSession known (by decide +kernel)
    (by decide +kernel) spares reported
  rw [settings] at whole passed own
  have same : session = usedSession := left
  simp only [built, same]
  refine ⟨claimed, stored, report, reported, failed, ?_, ?_, ?_⟩
  next => exact whole "A.svelte".toList (by rw [transformed]; decide)
  next => exact passed "D.svelte".toList (by rw [unchanged]; decide)
  next =>
    have among : ("C.svelte".toList, "BlockReadError".toList) ∈
        report.failed.map fun (relative, payload) => (relative, payload.code) := by
      rw [failed]
      decide
    obtain ⟨⟨relative, payload⟩, member, code⟩ := List.mem_map.1 among
    obtain ⟨rfl, unreadable⟩ := Prod.mk.inj code
    obtain ⟨text, failure, read, answers, rfl⟩ := own _ payload member (.inl unreadable)
    exact ⟨text, failure, read, answers, member⟩

end Inlay
