import Inlay.Proofs.Build.Record
import Inlay.Proofs.Session.Repertoire
import Inlay.Proofs.Workspace.Fault

set_option autoImplicit false

namespace Inlay

open Text Workspace

def IsHost (workspace : Workspace) (source suffix relative : Text) : Prop :=
  ∃ place front name bytes, workspace.locate source source = .ok place ∧
    workspace.get? (place ++ (front ++ [name])) = some (.file bytes) ∧ suffix <:+ name ∧
    relative = join ['/'] (front ++ [name])

structure Unblocked (workspace : Workspace) (output : Text) (targets : Text → Prop) : Prop where
  free : ∀ relative, targets relative →
    workspace.get? (placeOf (Path.joinTexts output relative)) ≠ some .directory
  clear : ∀ relative, targets relative →
    ∀ front, front <+: wayTo (Path.joinTexts output relative) →
    ∀ bytes, workspace.get? (endOf front) ≠ some (.file bytes)

/-- The path of the directory, each `..` followed, does not go through a target. -/
structure Viable (output : Text) (targets : Text → Prop) : Prop where
  nameable : ∀ relative, targets relative → Nameable (Path.joinTexts output relative)
  apart : ∀ relative, targets relative → ∀ front, front <+: componentsOf output →
    endOf front ≠ placeOf (Path.joinTexts output relative)

section Listed

variable {workspace : Workspace} {output : Text} {targets : Text → Prop} {relatives : List Text}

-- With the paths in a list, both can be checked.
theorem Unblocked.of_listed (listed : ∀ relative, targets relative → relative ∈ relatives)
    (free : ∀ relative ∈ relatives,
      workspace.get? (placeOf (Path.joinTexts output relative)) ≠ some .directory)
    (clear : ∀ relative ∈ relatives, ∀ front ∈ (wayTo (Path.joinTexts output relative)).inits,
      (workspace.get? (endOf front)).getD .directory = .directory) :
    Unblocked workspace output targets where
  free := fun relative target => free relative (listed relative target)
  clear := by
    intro relative target front part bytes file
    have directory := clear relative (listed relative target) front ((List.mem_inits _ _).2 part)
    simp [file] at directory

theorem Viable.of_listed (listed : ∀ relative, targets relative → relative ∈ relatives)
    (nameable : ∀ relative ∈ relatives, Nameable (Path.joinTexts output relative))
    (apart : ∀ relative ∈ relatives, ∀ front ∈ (componentsOf output).inits,
      endOf front ≠ placeOf (Path.joinTexts output relative)) : Viable output targets where
  nameable := fun relative target => nameable relative (listed relative target)
  apart := fun relative target front part =>
    apart relative (listed relative target) front ((List.mem_inits _ _).2 part)

end Listed

theorem IsHost.mem_of_sources {files : List (Text × Bytes)} {suffix relative : Text}
    (host : IsHost (ofSources files) "/src".toList suffix relative)
    (tree : (ofSources files).IsTree) : relative ∈ (files.map Prod.fst).filter (endsWith suffix) := by
  obtain ⟨place, front, name, bytes, located, file, ends, rfl⟩ := host
  cases (locate_ofSources files).symm.trans located
  have below : front ++ [name] ∈ (ofSources files).filesBelow ["src".toList] :=
    tree.mem_filesBelow.2 ⟨by simp, bytes, file⟩
  rw [filesBelow_ofSources] at below
  obtain ⟨known, member, same⟩ := List.mem_map.1 below
  obtain ⟨rfl, rfl⟩ : front = [] ∧ known = name := by
    cases front <;> simp_all
  rw [List.nil_append, join]
  exact List.mem_filter.2 ⟨member, List.isSuffixOf_iff_suffix.2 ends⟩

structure AccountsFor (before after : Workspace) (encoding output : Text) (hosts : Text → Prop)
    (report : Report) : Prop where
  distinct : report.entries.Nodup
  complete : ∀ relative, relative ∈ report.entries ↔ hosts relative
  ok : report.ok = true ↔ report.failed = []
  -- Each text is written once, and nothing else is.
  written : ∃ texts, (texts.map Prod.fst).Perm
      ((report.transformed ++ report.unchanged).map (Path.joinTexts output)) ∧
    depositAll encoding before texts = .ok after
  there : ∀ relative ∈ report.transformed ++ report.unchanged, ∃ bytes,
    after.get? (placeOf (Path.joinTexts output relative)) = some (.file bytes)
  failed : ∀ relative ∈ report.failed.map Prod.fst,
    after.get? (placeOf (Path.joinTexts output relative)) =
      before.get? (placeOf (Path.joinTexts output relative))
  elsewhere : ∀ place, (∀ relative ∈ report.transformed ++ report.unchanged,
      place ≠ placeOf (Path.joinTexts output relative)) →
    after.get? place = before.get? place ∨
      before.get? place = none ∧ after.get? place = some .directory

namespace Workspace

variable {workspace : Workspace} {encoding shown path text : Text} {codec : Codec}
variable {fault : FileFault}

-- With a known encoding, what keeps a text from being read is reported of its document.
theorem isReported_of_readText (named : Char.ofNat 0 ∉ encoding)
    (known : workspace.coding encoding = .ok codec.coding) (legible : Char.ofNat 0 ∉ path)
    (failed : workspace.readText encoding shown path = .error fault) :
    Build.isReported fault = true := by
  rcases cases_of_readText_error failed with
    ⟨null, -⟩ | ⟨-, unread | ⟨bytes, -, unnamed | ⟨coding, cause, known', decoded, rfl⟩⟩⟩
  next => exact absurd null named
  next =>
    have system := (isOfPath_of_read unread).resolve_left fun null => legible null.2
    cases fault <;> first | rfl | exact system
  next => cases known.symm.trans unnamed
  next =>
    cases known.symm.trans known'
    obtain ⟨place, rfl⟩ := Codec.exists_of_decode_error decoded
    rfl

end Workspace

namespace Build

variable {start build next : Build} {document other : Document} {codec : Codec}
variable {documents pending : List Document} {log : List Ending} {ending : Ending}
variable {task : OpenDocument} {path text relative : Text} {front : List Text}

theorem Begins.isHost_iff (begins : start.Begins codec.coding documents)
    (unmarked : IsUnmarked start.session.settings.hostSuffix) :
    IsHost start.workspace start.source start.session.settings.hostSuffix relative ↔
      relative ∈ documents.map Document.relative := by
  have whole : '/' ∉ start.session.settings.hostSuffix := by
    intro slash
    exact absurd (unmarked '/' slash) (by decide)
  simp only [List.mem_map, mem_discover begins.tree begins.found, matchesSuffix_iff unmarked]
  constructor
  next =>
    rintro ⟨place, front, name, bytes, located, file, ends, rfl⟩
    refine ⟨⟨front ++ [name]⟩, ⟨whole, place, located, by simp, ⟨bytes, file⟩, ?_⟩, rfl⟩
    simpa [Document.name] using ends
  next =>
    rintro ⟨⟨components⟩, ⟨-, place, located, nonempty, ⟨bytes, file⟩, ends⟩, rfl⟩
    obtain ⟨front, name, rfl⟩ : ∃ front name, components = front ++ [name] :=
      ⟨_, _, (List.dropLast_concat_getLast nonempty).symm⟩
    refine ⟨place, front, name, bytes, located, file, ?_, rfl⟩
    simpa [Document.name] using ends

structure Unhindered (start : Build) (codec : Codec) (documents : List Document) : Prop
    extends start.Begins codec.coding documents where
  legible : Char.ofNat 0 ∉ start.encoding
  unblocked : Unblocked start.workspace start.output (· ∈ documents.map Document.relative)
  viable : Viable start.output (· ∈ documents.map Document.relative)

namespace Unhindered

variable (free : start.Unhindered codec documents)

include free

theorem wayTo_join (member : document ∈ documents) (base : Text) :
    wayTo (Path.joinTexts base document.relative) =
      componentsOf base ++ document.components.dropLast := by
  obtain ⟨nonempty, names⟩ := free.toBegins.isName member
  have parts := (List.dropLast_concat_getLast nonempty).symm
  rw [wayTo, Document.relative, parts, List.dropLast_concat]
  refine componentsOf_directory_joinTexts base ?_
  rw [← parts]
  exact fun component inside => (names component inside).toIsPlain

-- A document is not on the way to one.
theorem apart (member : document ∈ documents) (member' : other ∈ documents)
    (part : front <+: wayTo (Path.joinTexts start.output document.relative)) :
    endOf front ≠ placeOf (Path.joinTexts start.output other.relative) := by
  rw [free.wayTo_join member] at part
  rcases List.prefix_or_prefix_of_prefix part (List.prefix_append _ _) with early | late
  next => exact free.viable.apart _ (List.mem_map_of_mem member') front early
  next =>
    obtain ⟨inner, rfl⟩ := late
    rw [List.prefix_append_right_inj] at part
    obtain ⟨nonempty, names⟩ := free.toBegins.isName member
    have plain (component : Text) (inside : component ∈ inner) : IsPlain component :=
      (names component (List.dropLast_subset _ (part.subset inside))).toIsPlain
    rw [endOf, List.foldl_append, ← placeOf_eq, foldl_enter_plain _ plain,
      free.toBegins.placeOf_join member']
    intro same
    -- The source directory would have a file and a directory in one place.
    obtain ⟨-, place, located, -, ⟨bytes, file⟩, -⟩ := (mem_discover free.tree free.found).1 member'
    obtain ⟨-, place', located', -, ⟨bytes', file'⟩, -⟩ := (mem_discover free.tree free.found).1 member
    cases located.symm.trans located'
    obtain ⟨rest, whole⟩ := part
    rw [← List.dropLast_concat_getLast nonempty, ← whole, List.append_assoc, ← List.append_assoc]
      at file'
    have directory := free.tree.directory_of_append file' (by simp)
    rw [List.append_cancel_left same, file] at directory
    cases directory

theorem isOpen (member : document ∈ documents) :
    start.workspace.IsOpen (Path.joinTexts start.output document.relative) where
  nameable := free.viable.nameable _ (List.mem_map_of_mem member)
  named := by
    obtain ⟨nonempty, names⟩ := free.toBegins.isName member
    refine ⟨document.components.getLast nonempty, ?_, (names _ (List.getLast_mem _)).toIsPlain⟩
    rw [free.wayTo_join member, List.append_assoc, List.dropLast_concat_getLast]
    exact componentsOf_joinTexts _ fun component inside => (names component inside).toIsPlain
  clear := free.unblocked.clear _ (List.mem_map_of_mem member)
  free := free.unblocked.free _ (List.mem_map_of_mem member)
  apart := fun _ part => free.apart member member part

variable (logged : Logged start documents log build (document :: pending))

include logged

theorem still_open :
    build.workspace.IsOpen (Path.joinTexts start.output document.relative) := by
  have member := logged.mem_of_pending List.mem_cons_self
  refine (logged.deposits free.toBegins).isOpen (free.isOpen member)
    (logged.new_target free.toBegins) ?_ ?_
  next =>
    intro item among front part
    obtain ⟨ending, ended, path⟩ := mem_writesOf among
    rw [path]
    exact free.apart member (logged.mem_documents ended) part
  next =>
    intro item among front part
    obtain ⟨ending, ended, path⟩ := mem_writesOf among
    rw [path] at part
    exact free.apart (logged.mem_documents ended) member part

theorem takes_conclude {result : Except Failure (Option Text)} (whole : Within codec.Has text)
    (within : ∀ code, result = .ok (some code) → Within codec.Has code) :
    Takes (endingOf document text result) build (build.conclude document text result) := by
  refine (Build.takes_conclude build document text result).resolve_right ?_
  rintro ⟨⟨fault, failed⟩, -⟩
  have known := logged.known free.toBegins
  have tree := (logged.deposits free.toBegins).tree
  cases result with
  | error failure => cases failed
  | ok code? =>
    have within' : Within codec.Has (code?.getD text) := by
      cases code? with
      | none => exact whole
      | some code => exact within code rfl
    obtain ⟨bytes, encoded⟩ := Codec.exists_encode within'
    obtain ⟨after, wrote⟩ := exists_deposit tree (free.still_open logged) known
      (Codec.encode_coding_iff.2 encoded)
    rw [← logged.output, ← depositAll_single] at wrote
    cases failed.symm.trans wrote

theorem isReported_of_read {fault : FileFault}
    (failed : build.reader.read (build.sourcePath document) = .error fault) :
    isReported fault = true := by
  have member := logged.mem_of_pending List.mem_cons_self
  have encoding := logged.encoding_eq
  have legible : Char.ofNat 0 ∉ build.sourcePath document := by
    obtain ⟨-, place, located, -⟩ := (mem_discover free.tree free.found).1 member
    have names := (free.toBegins.isName member).2
    refine legible_of_componentsOf fun component inside => ?_
    rw [logged.sourcePath_eq, sourcePath, Document.relative,
      componentsOf_joinTexts _ fun component inside => (names component inside).toIsPlain] at inside
    rcases List.mem_append.1 inside with outer | inner
    next => exact legible_of_mem_componentsOf (locate_eq_ok_iff.1 located).1 outer
    next => exact (names component inner).legible
  exact isReported_of_readText (encoding ▸ free.legible) (logged.known free.toBegins) legible failed

end Unhindered

def encodable (codec : Codec) : Regime where
  shared := Session.Obeys fun _ => Within codec.Has
  ended := fun _ => True
  going := fun _ task => Within codec.Has task.text ∧ task.job.Within codec.Has

theorem Takes.obeys {behind : Text → Text → Prop} (takes : Takes ending build next)
    (stored : build.session.Obeys behind) : next.session.Obeys behind := by
  obtain ⟨journal, same⟩ := takes.session
  rw [same]
  exact stored.of_journal journal

theorem within_firstJob (build : Build) (document : Document) (whole : Within codec.Has text) :
    (build.firstJob document text).Within codec.Has := by
  unfold firstJob
  split
  next => exact whole
  next => rintro _ ⟨⟩

namespace Unhindered

variable (free : start.Unhindered codec documents)

include free

theorem obeys_reader (logged : Logged start documents log build pending) :
    build.reader.Obeys fun _ => Within codec.Has := by
  exact fun _ _ read => within_readText (logged.known free.toBegins) read

theorem turn_moves (logged : Logged start documents log build (task.document :: pending))
    (stored : build.session.Obeys fun _ => Within codec.Has) (whole : Within codec.Has task.text)
    (within : task.job.Within codec.Has) :
    (build.turn task).1.fault? = build.fault? ∧
      Moves (encodable codec) start documents log pending task.document build.session
        (build.turn task) := by
  have reads := free.obeys_reader logged
  have stored' := Session.obeys_turn reads (build.identity task.document) task.job stored
  have within' : (build.session.turn build.reader (build.identity task.document) task.job).2.Within
      codec.Has :=
    Session.within_turn (within_insertedMarks codec) reads (fun _ _ _ whole => whole) stored within
  have settled := logged.resettled
    (Session.settings_turn build.reader (build.identity task.document) build.session task.job)
  rcases turn_cases build task with ⟨-, turned⟩ | ⟨result, finished, turned⟩
  next =>
    rw [turned]
    exact ⟨rfl, stored', fun _ others => others, .inr ⟨_, rfl, rfl, ⟨whole, within'⟩, settled⟩⟩
  next =>
    rw [turned]
    rw [finished] at within'
    have takes := free.takes_conclude settled whole within'
    exact ⟨takes.fault, takes.obeys stored', fun _ others => others,
      .inl ⟨rfl, _, trivial, settled.takes takes⟩⟩

theorem start_moves (logged : Logged start documents log build (document :: pending))
    (stored : build.session.Obeys fun _ => Within codec.Has) :
    (build.start document).1.fault? = build.fault? ∧
      Moves (encodable codec) start documents log pending document build.session
        (build.start document) := by
  rcases start_cases build document with
    ⟨text, read, begun⟩ | ⟨fault, -, -, begun⟩ | ⟨fault, failed, unreported, -⟩
  next =>
    have whole := free.obeys_reader logged _ text read
    rw [begun]
    have opened : Logged start documents log build
        ((⟨document, text, build.firstJob document text⟩ : OpenDocument).document :: pending) := logged
    exact free.turn_moves opened stored whole (within_firstJob build document whole)
  next =>
    rw [begun]
    have takes := takes_fail build document ⟨fault.message, fault.code, []⟩
    exact ⟨takes.fault, takes.obeys stored, fun _ others => others,
      .inl ⟨rfl, _, trivial, logged.takes takes⟩⟩
  next => simp [free.isReported_of_read logged failed] at unreported

theorem calm_run (idle : start.report = {}) (calm : start.fault? = none)
    (stored : start.session.store = {}) :
    (start.run documents).fault? = none ∧
      ∃ log, Keeps (encodable codec) start documents (start.run documents) [] [] log := by
  refine Keeps.run_of_calm idle (.of_empty stored _) calm ?_ ?_
  next =>
    intro build log pending document logged stored quiet
    obtain ⟨fault, moves⟩ := free.start_moves logged stored
    exact ⟨fault.trans quiet, moves⟩
  next =>
    rintro build log pending task logged stored ⟨whole, within⟩ quiet
    obtain ⟨fault, moves⟩ := free.turn_moves logged stored whole within
    exact ⟨fault.trans quiet, moves⟩

theorem accounts (logged : Logged start documents log build []) :
    AccountsFor start.workspace build.workspace start.encoding start.output
      (· ∈ documents.map Document.relative) build.report := by
  have begins := free.toBegins
  have deposits := logged.deposits begins
  have paths := Report.writesOf_paths start.output log
  rw [← logged.report] at paths
  have entries : build.report.entries.Perm (documents.map Document.relative) := by
    have ended : (log.map (·.document)).Perm documents := by simpa using logged.accounted
    rw [logged.report]
    have relatives := ended.map Document.relative
    rw [List.map_map] at relatives
    exact (Report.entries_ofLog log).trans relatives
  have distinct : build.report.entries.Nodup := by
    rw [entries.nodup_iff]
    refine List.Nodup.map_on ?_ (nodup_discover begins.tree begins.found)
    exact fun _ member _ member' => relative_injective begins.tree begins.found member member'
  have target (item : Text × Text) (member : item ∈ writesOf start.output log) :
      ∃ relative ∈ build.report.transformed ++ build.report.unchanged,
        Path.joinTexts start.output relative = item.1 :=
    List.mem_map.1 (paths.subset (List.mem_map_of_mem member))
  refine ⟨distinct, fun _ => entries.mem_iff, by simp [Report.ok],
    ⟨_, paths, logged.workspace⟩, ?there, ?failed, ?elsewhere⟩
  case there =>
    intro relative member
    obtain ⟨item, among, same⟩ := List.mem_map.1 (paths.symm.subset (List.mem_map_of_mem member))
    obtain ⟨bytes, -, found⟩ := deposits.file among
    exact ⟨bytes, same ▸ found⟩
  case failed =>
    intro relative member
    obtain ⟨document, found, rfl⟩ := List.mem_map.1
      (entries.subset (List.mem_append_right _ member))
    -- The text of another document is in another place, and this place is not on the way to one.
    refine (deposits.elsewhere ?_).resolve_right ?_
    next =>
      intro item among same
      obtain ⟨relative, written, path⟩ := target item among
      obtain ⟨other, found', rfl⟩ := List.mem_map.1
        (entries.subset (List.mem_append_left _ written))
      rw [← path] at same
      rw [begins.eq_of_placeOf found found' same] at member
      exact (List.nodup_append.1 distinct).2.2 _ written _ member rfl
    next =>
      rintro ⟨-, -, item, among, front, part, same⟩
      obtain ⟨ending, ended, path⟩ := mem_writesOf among
      rw [path] at part
      exact free.apart (logged.mem_documents ended) found part same.symm
  case elsewhere =>
    intro place outside
    refine (deposits.elsewhere ?_).imp_right fun made => ⟨made.1, made.2.1⟩
    intro item among
    obtain ⟨relative, written, path⟩ := target item among
    exact path ▸ outside relative written

end Unhindered
end Build

/-- A build with nothing in its way gives a report that accounts for every document. -/
theorem buildTree_accounts {workspace : Workspace} (tree : workspace.IsTree) (session : Session)
    {codec : Codec} (known : Codec.ofName? session.settings.encoding = some codec)
    (legible : Char.ofNat 0 ∉ session.settings.encoding)
    (admits : Form.suffix.admits session.settings.hostSuffix = true) {source output : Text}
    {isThere : Bool} (located : workspace.hasDirectory source = .ok isThere)
    (unblocked : Unblocked workspace output
      (IsHost workspace source session.settings.hostSuffix))
    (viable : Viable output (IsHost workspace source session.settings.hostSuffix)) :
    ∃ report, (buildTree workspace session source output).2.2 = .ok report ∧
      AccountsFor workspace (buildTree workspace session source output).1 session.settings.encoding
        output (IsHost workspace source session.settings.hostSuffix) report := by
  have unmarked := isUnmarked_of_admits admits
  obtain ⟨documents, found⟩ := exists_discover unmarked workspace source
  let start : Build := { source, output, workspace, session := session.reset }
  have begins : start.Begins codec.coding documents := ⟨tree, coding_of_ofName? known, found⟩
  have hosts : IsHost workspace source session.settings.hostSuffix =
      (· ∈ documents.map Document.relative) :=
    funext fun _ => propext (begins.isHost_iff unmarked)
  rw [hosts] at unblocked viable ⊢
  have free : start.Unhindered codec documents := ⟨begins, legible, unblocked, viable⟩
  obtain ⟨quiet, log, keeps⟩ := free.calm_run rfl rfl rfl
  have logged : Build.Logged start documents log (start.run documents) [] := keeps.logged
  have same : buildTree workspace session source output =
      ((start.run documents).workspace, (start.run documents).session,
        (start.run documents).outcome) := buildTree_of_discover found located
  rw [same, Build.outcome, quiet]
  exact ⟨_, rfl, free.accounts logged⟩

def twoPages : Workspace :=
  ofSources [("a.svelte".toList, Utf8.encode "<p/>".toList),
    ("b.svelte".toList, Utf8.encode "import B from \"./b.svelte.xblock\";<B/>".toList)]

theorem isTree_twoPages : twoPages.IsTree :=
  isTree_ofSources (by decide) (by decide)

theorem isHost_twoPages {relative : Text}
    (host : IsHost twoPages "/src".toList ".svelte".toList relative) :
    relative ∈ ["a.svelte".toList, "b.svelte".toList] :=
  host.mem_of_sources isTree_twoPages

theorem buildTree_accounts_of_missing_block : ∃ report,
    (buildTree twoPages {} "/src".toList "/out".toList).2.2 = .ok report ∧
      "a.svelte".toList ∈ report.entries ∧ "b.svelte".toList ∈ report.entries ∧
      AccountsFor twoPages (buildTree twoPages {} "/src".toList "/out".toList).1 "utf-8".toList
        "/out".toList (IsHost twoPages "/src".toList ".svelte".toList) report := by
  have located : twoPages.hasDirectory "/src".toList = .ok true := hasDirectory_ofSources _
  have known : Codec.ofName? ({} : Session).settings.encoding = some .utf8 := by decide
  have unblocked : Unblocked twoPages "/out".toList (IsHost twoPages "/src".toList ".svelte".toList) :=
    .of_listed (fun _ => isHost_twoPages) (by decide) (by decide)
  have viable : Viable "/out".toList (IsHost twoPages "/src".toList ".svelte".toList) :=
    .of_listed (fun _ => isHost_twoPages) (by decide) (by decide)
  obtain ⟨report, built, accounts⟩ := buildTree_accounts isTree_twoPages {} known
    (by decide) (by decide) located unblocked viable
  have isHost (name : Text) (bytes : Bytes) (ends : ".svelte".toList <:+ name)
      (file : twoPages.get? (["src".toList] ++ ([] ++ [name])) = some (.file bytes)) :
      name ∈ report.entries :=
    (accounts.complete name).2 ⟨_, [], name, bytes, locate_ofSources _, file, ends, rfl⟩
  exact ⟨report, built, isHost _ (Utf8.encode "<p/>".toList) (by decide) (by decide),
    isHost _ (Utf8.encode "import B from \"./b.svelte.xblock\";<B/>".toList) (by decide)
      (by decide), accounts⟩

def onePageFile : List (Text × Bytes) :=
  [("a.svelte".toList, Utf8.encode "<p/>".toList)]

def onePage : Workspace :=
  ofSources onePageFile

theorem isTree_onePage : onePage.IsTree :=
  isTree_ofSources (by decide) (by decide)

theorem isHost_onePage {relative : Text}
    (host : IsHost onePage "/src".toList ".svelte".toList relative) : relative ∈ ["a.svelte".toList] :=
  host.mem_of_sources isTree_onePage

theorem no_report_of_fault {output : Text} {report : Report}
    (faulty : ((Build.ofSources onePageFile {} output).run
      (documentsOf ["a.svelte".toList])).fault? ≠ none) :
    (buildTree onePage {} "/src".toList output).2.2 ≠ .ok report := by
  intro built
  obtain ⟨documents, found, -, quiet, -⟩ := exists_run_of_report built
  have found' : discover? onePage "/src".toList ".svelte".toList =
      some (documentsOf ["a.svelte".toList]) :=
    discover_ofSources (by decide) (by decide)
  cases found'.symm.trans found
  exact faulty quiet

def longRoot : Text :=
  '/' :: List.replicate 300 'x'

theorem buildTree_without_report :
    onePage.IsTree ∧ Form.suffix.admits ({} : Session).settings.hostSuffix = true ∧
    ({} : Session).settings.encoding = "utf-8".toList ∧
    (∀ output ∈ [longRoot, "/out/a.svelte/..".toList],
      ¬ placeOf "/src".toList <+: placeOf output ∧
      Unblocked onePage output (IsHost onePage "/src".toList ".svelte".toList) ∧
      ∀ report, (buildTree onePage {} "/src".toList output).2.2 ≠ .ok report) ∧
    Unblocked onePage "/out".toList (IsHost onePage longRoot ".svelte".toList) ∧
    ∀ report, (buildTree onePage {} longRoot "/out".toList).2.2 ≠ .ok report := by
  have stopped : ∀ output ∈ [longRoot, "/out/a.svelte/..".toList],
      ((Build.ofSources onePageFile {} output).run (documentsOf ["a.svelte".toList])).fault? ≠ none := by
    simp only [List.forall_mem_cons, List.not_mem_nil, false_implies, implies_true, and_true]
    unfold Build.run
    dsimp only
    constructor
    next =>
      rw [Build.settle, if_pos (by decide +kernel)]
      decide +kernel
    next =>
      rw [Build.settle, if_pos (by decide +kernel)]
      decide +kernel
  have outside : ∀ output ∈ [longRoot, "/out/a.svelte/..".toList],
      ¬ placeOf "/src".toList <+: placeOf output := by decide +kernel
  have free : ∀ output ∈ [longRoot, "/out/a.svelte/..".toList], ∀ relative ∈ ["a.svelte".toList],
      onePage.get? (placeOf (Path.joinTexts output relative)) ≠ some .directory := by decide +kernel
  have clear : ∀ output ∈ [longRoot, "/out/a.svelte/..".toList], ∀ relative ∈ ["a.svelte".toList],
      ∀ front ∈ (wayTo (Path.joinTexts output relative)).inits,
      (onePage.get? (endOf front)).getD .directory = .directory := by decide +kernel
  have nowhere : onePage.locate longRoot longRoot = .error (.nameTooLong longRoot) := by
    decide +kernel
  have unknown : onePage.hasDirectory longRoot = .error (.nameTooLong longRoot) := by decide +kernel
  refine ⟨isTree_onePage, by decide +kernel, rfl, ?_, ?_, ?_⟩
  next =>
    intro output member
    exact ⟨outside output member,
      .of_listed (fun _ => isHost_onePage) (free output member) (clear output member),
      fun _ => no_report_of_fault (stopped output member)⟩
  next =>
    have none (relative : Text) : ¬ IsHost onePage longRoot ".svelte".toList relative := by
      rintro ⟨place, front, name, bytes, located, -⟩
      cases nowhere.symm.trans located
    exact ⟨fun relative host => absurd host (none relative),
      fun relative host => absurd host (none relative)⟩
  next =>
    intro report built
    obtain ⟨documents, -, ⟨isThere, located⟩, -⟩ := exists_run_of_report built
    cases unknown.symm.trans located

end Inlay
