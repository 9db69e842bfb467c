import Inlay.Proofs.Build.Record
import Inlay.Proofs.Session.Pacing

set_option autoImplicit false

namespace Inlay

open Text Workspace

structure Bid where
  document : Document
  text : Text
  position : Nat
  attempt : Attempt

def Bid.Before (documents : List Document) (first second : Bid) : Prop :=
  first.position < second.position ∨
    first.position = second.position ∧
      documents.idxOf first.document < documents.idxOf second.document

def refusedBids (bids : List Bid) : List (Text × Payload) :=
  bids.filterMap fun bid => bid.attempt.refusal?.map fun failure =>
    (bid.document.relative, failure.payload)

@[simp] theorem refusedBids_nil : refusedBids [] = [] := rfl

@[simp] theorem refusedBids_append (bids others : List Bid) :
    refusedBids (bids ++ others) = refusedBids bids ++ refusedBids others :=
  List.filterMap_append

def Report.reuses (report : Report) : List (Text × Payload) :=
  report.failed.filter fun entry => entry.2.code == "DuplicateUsageError".toList

namespace Build

def imports (build : Build) (document : Document) (text : Text) : List Import :=
  Import.scan build.session.settings.blockSuffix (build.identity document) text

def Opens (start : Build) (documents : List Document) (document : Document) (text : Text) : Prop :=
  ∃ front back, documents = front ++ document :: back ∧
    (start.startAll front).1.reader.read (start.sourcePath document) = .ok text

structure Makes (start : Build) (documents : List Document) (bid : Bid) : Prop where
  opens : start.Opens documents bid.document bid.text
  reference : (start.imports bid.document bid.text)[bid.position]? = some bid.attempt.reference
  identity : bid.attempt.document = start.identity bid.document

structure IsAt (start : Build) (documents : List Document) (position : Nat) (session : Session)
    (task : OpenDocument) : Prop where
  opens : start.Opens documents task.document task.text
  pending : task.job.pending = (start.imports task.document task.text).drop position
  due : task.job.IsDue session
  quiet : task.job.refusals = []

structure Beat (start : Build) (documents : List Document) (position : Nat) (before : Build)
    (queue : List Document) (bids : List Bid) (after : Build) (opened : List OpenDocument) :
    Prop where
  follows : Follows before after
  traced : Session.Traced before.session (bids.map (·.attempt)) after.session
  stores : after.session.StoresRecorded
  reuses : after.report.reuses = before.report.reuses ++ refusedBids bids
  made : ∀ bid ∈ bids, bid.position = position ∧ start.Makes documents bid
  bidders : (bids.map (·.document)).Sublist queue
  waiting : (opened.map (·.document)).Sublist queue
  at_next : ∀ task ∈ opened, start.IsAt documents (position + 1) after.session task

variable {start build before middle after : Build} {document : Document} {text : Text}
variable {documents queue others front : List Document} {position : Nat} {session : Session}
variable {bids more : List Bid} {opened tasks moved : List OpenDocument} {task : OpenDocument}

theorem Follows.imports_eq (follows : Follows start build) (document : Document) (text : Text) :
    build.imports document text = start.imports document text := by
  rw [imports, imports, follows.settings, follows.identity_eq]

theorem IsAt.mono {next : Session} (at_position : start.IsAt documents position session task)
    (grows : session.ledger.paths ⊆ next.ledger.paths) :
    start.IsAt documents position next task :=
  ⟨at_position.opens, at_position.pending, at_position.due.mono grows, at_position.quiet⟩

namespace Beat

theorem nil (stores : build.session.StoresRecorded) :
    Beat start documents position build [] [] build [] where
  follows := .refl build
  traced := (Session.Keeps.refl build.session).traced
  stores := stores
  reuses := (List.append_nil _).symm
  made := by simp
  bidders := .slnil
  waiting := .slnil
  at_next := by simp

theorem append (early : Beat start documents position before queue bids middle opened)
    (late : Beat start documents position middle others more after moved) :
    Beat start documents position before (queue ++ others) (bids ++ more) after
      (opened ++ moved) where
  follows := early.follows.trans late.follows
  traced := by rw [List.map_append]; exact early.traced.append late.traced
  stores := late.stores
  reuses := by rw [late.reuses, early.reuses, refusedBids_append, List.append_assoc]
  made := List.forall_mem_append.2 ⟨early.made, late.made⟩
  bidders := by rw [List.map_append]; exact early.bidders.append late.bidders
  waiting := by rw [List.map_append]; exact early.waiting.append late.waiting
  at_next := List.forall_mem_append.2
    ⟨fun task member => (early.at_next task member).mono late.traced.paths_subset, late.at_next⟩

end Beat

-- The bids of a document in one turn.
def bidsOf (task : OpenDocument) (position : Nat) (attempts : List Attempt) : List Bid :=
  attempts.map fun attempt => ⟨task.document, task.text, position, attempt⟩

theorem attempts_bidsOf (task : OpenDocument) (position : Nat) (attempts : List Attempt) :
    (bidsOf task position attempts).map (·.attempt) = attempts := by
  simp [bidsOf, Function.comp_def]

theorem refusedBids_bidsOf (task : OpenDocument) (position : Nat) (attempts : List Attempt) :
    refusedBids (bidsOf task position attempts) =
      (refusals attempts).map fun failure => (task.document.relative, failure.payload) := by
  rw [refusedBids, bidsOf, List.filterMap_map, refusals, List.map_filterMap]
  rfl

-- At the pace of one claim a turn makes one bid at most, for the first import that is left.
theorem IsAt.makes {attempts : List Attempt} {next : Job} {after : Session}
    (at_position : start.IsAt documents position session task) (short : attempts.length ≤ 1)
    (turned : Session.Turned (start.identity task.document) session task.job attempts after next) :
    ∀ bid ∈ bidsOf task position attempts, bid.position = position ∧ start.Makes documents bid := by
  match attempts, short with
  | [], _ => simp [bidsOf]
  | [attempt], _ =>
    obtain ⟨⟨left, pending⟩, own⟩ := turned.of_singleton
    rw [at_position.pending] at pending
    refine List.forall_mem_singleton.2 ⟨rfl, at_position.opens, ?_, own⟩
    change (start.imports task.document task.text)[position]? = some attempt.reference
    rw [← List.head?_drop, pending, List.head?_cons]

theorem code_eq (failure : Failure) :
    (failure.payload.code == "DuplicateUsageError".toList) = failure.isReuse := by
  cases failure <;> rfl

theorem reuses_conclude (build : Build) (document : Document) (text : Text)
    (result : Except Failure (Option Text)) :
    (build.conclude document text result).report.reuses = build.report.reuses ++
      (Job.finished result).refusals.map fun failure => (document.relative, failure.payload) := by
  rcases conclude_cases build document text result with
    takes | ⟨code?, workspace, fault, rfl, -, -, stopped⟩
  next =>
    rw [takes.report]
    match result with
    | .ok none => simp [Report.add, endingOf, Except.mapError, Report.reuses, Job.refusals]
    | .ok (some code) => simp [Report.add, endingOf, Except.mapError, Report.reuses, Job.refusals]
    | .error failure =>
      simp only [Report.add, endingOf, Except.mapError, Report.reuses, Job.refusals,
        List.filter_append, List.filter_cons, List.filter_nil, code_eq]
      cases failure.isReuse <;> rfl
  next =>
    rw [stopped]
    exact (List.append_nil _).symm

theorem IsAt.exists_bids (at_position : start.IsAt documents position build.session task)
    (follows : Follows start build) (stores : build.session.StoresRecorded)
    (once : ∀ path, build.reader.pauses path = 1) :
    let outcome := build.session.turn build.reader (build.identity task.document) task.job
    Session.Paced task.job.pending build.session outcome.1 outcome.2 ∧ ∃ bids,
      Session.Traced build.session (bids.map (·.attempt)) outcome.1 ∧
      (refusedBids bids = outcome.2.refusals.map fun failure =>
        (task.document.relative, failure.payload)) ∧
      (∀ bid ∈ bids, bid.position = position ∧ start.Makes documents bid) ∧
      (bids.map (·.document)).Sublist [task.document] := by
  intro outcome
  have paced : Session.Paced task.job.pending build.session outcome.1 outcome.2 :=
    Session.paced_turn once stores _ at_position.due
  obtain ⟨attempts, turned⟩ :=
    Session.turned_turn build.reader (build.identity task.document) build.session task.job
  have short : attempts.length ≤ 1 := by
    have single := paced.single
    rw [turned.traced.made, List.length_append] at single
    exact Nat.le_of_add_le_add_left single
  refine ⟨paced, bidsOf task position attempts, ?_, ?_,
    at_position.makes short (follows.identity_eq task.document ▸ turned), ?_⟩
  next =>
    rw [attempts_bidsOf]
    exact turned.traced
  next =>
    have refused := turned.refused
    rw [at_position.quiet, List.nil_append] at refused
    rw [refusedBids_bidsOf, ← refused]
  next =>
    match attempts, short with
    | [], _ => exact List.nil_sublist _
    | [attempt], _ => exact List.Sublist.refl _

theorem beat_turn (follows : Follows start build) (stores : build.session.StoresRecorded)
    (once : ∀ path, start.workspace.machine.pauses path = 1)
    (at_position : start.IsAt documents position build.session task) :
    ∃ bids, Beat start documents position build [task.document] bids (build.turn task).1
      (build.turn task).2.toList := by
  have once' (path : Text) : build.reader.pauses path = 1 := by
    rw [← once path, ← follows.machine]
    rfl
  let outcome := build.session.turn build.reader (build.identity task.document) task.job
  obtain ⟨paced, bids, traced, refused, made, bidders⟩ :=
    at_position.exists_bids follows stores once'
  refine ⟨bids, ?_⟩
  rcases turn_cases build task with ⟨running, waits⟩ | ⟨result, finished, ends⟩
  next =>
    rw [waits]
    have quiet : outcome.2.refusals = [] := by
      cases job : outcome.2 with
      | finished result => simp [outcome, job, Job.isFinished] at running
      | ready => rfl
      | waiting => rfl
    refine ⟨⟨rfl, rfl, traced.settings, rfl⟩, traced, paced.stores, ?_, made, bidders, by simp, ?_⟩
    next => rw [refused, quiet, List.map_nil, List.append_nil]
    next =>
      have left := paced.left.resolve_left (by simp [running])
      refine List.forall_mem_singleton.2 ⟨at_position.opens, ?_, paced.due, quiet⟩
      exact left.trans (by rw [at_position.pending, List.drop_drop])
  next =>
    rw [ends]
    obtain ⟨same, journal, session⟩ :=
      follows_conclude { build with session := outcome.1 } task.document task.text result
    refine ⟨((Follows.refl build).resettled traced.settings).trans same, ?_, ?_, ?_, made,
      bidders, by simp, by simp⟩
    next =>
      rw [session]
      exact ⟨traced.settings, traced.made, traced.entries, traced.seen⟩
    next =>
      rw [session]
      exact paced.stores.of_same rfl rfl
    next => rw [reuses_conclude, refused, finished]

theorem isAt_firstJob (follows : Follows start build)
    (opens : start.Opens documents document text) (accepted : build.session.accepts
      (build.identity document) = true) :
    start.IsAt documents 0 build.session ⟨document, text, build.firstJob document text⟩ := by
  have job : build.firstJob document text = .ready text (build.imports document text) := by
    rw [firstJob, if_pos accepted]
    rfl
  rw [job]
  exact ⟨opens, follows.imports_eq document text, trivial, rfl⟩

theorem code_of_file (fault : FileFault) :
    (fault.code == "DuplicateUsageError".toList) = false := by
  cases fault <;> rfl

theorem beat_start (follows : Follows start build) (stores : build.session.StoresRecorded)
    (once : ∀ path, start.workspace.machine.pauses path = 1)
    (opens : ∀ text, build.reader.read (build.sourcePath document) = .ok text →
      start.Opens documents document text) :
    ∃ bids, Beat start documents 0 build [document] bids (build.start document).1
      (build.start document).2.toList := by
  have ends (after : Build) (same : Follows build after)
      (session : ∃ journal, after.session = { build.session with journal })
      (report : after.report.reuses = build.report.reuses) :
      ∃ bids, Beat start documents 0 build [document] bids after [] := by
    obtain ⟨journal, session⟩ := session
    refine ⟨[], same, ?_, ?_, ?_, by simp, List.nil_sublist _, List.nil_sublist _, by simp⟩
    next =>
      have kept : build.session.Keeps after.session := by rw [session]; exact ⟨rfl, rfl, rfl⟩
      exact kept.traced
    next =>
      rw [session]
      exact stores.of_same rfl rfl
    next => rw [report, refusedBids_nil, List.append_nil]
  rcases start_cases build document with
    ⟨text, read, begun⟩ | ⟨fault, read, -, begun⟩ | ⟨fault, read, -, begun⟩
  next =>
    rw [begun]
    cases accepted : build.session.accepts (build.identity document) with
    | true => exact beat_turn follows stores once (isAt_firstJob follows (opens text read) accepted)
    | false =>
      -- A document without the host suffix ends in its first turn.
      have job : build.firstJob document text = .finished (.ok none) := by
        rw [firstJob, accepted]
        rfl
      rw [job]
      obtain ⟨same, session⟩ := follows_conclude build document text (.ok none)
      exact ends _ same session
        ((reuses_conclude build document text _).trans (List.append_nil _))
  next =>
    rw [begun]
    refine ends _ ⟨rfl, rfl, rfl, rfl⟩ ⟨_, rfl⟩ ?_
    simp only [fail, note, Report.reuses, List.filter_append, List.filter_cons, List.filter_nil,
      code_of_file]
    exact List.append_nil _
  next =>
    rw [begun]
    exact ends _ ⟨rfl, rfl, rfl, rfl⟩ ⟨_, rfl⟩ rfl

theorem beat_startAll (front : List Document) (follows : Follows start (start.startAll front).1)
    (stores : (start.startAll front).1.session.StoresRecorded)
    (once : ∀ path, start.workspace.machine.pauses path = 1)
    (whole : documents = front ++ queue) :
    ∃ bids, Beat start documents 0 (start.startAll front).1 queue bids
      ((start.startAll front).1.startAll queue).1 ((start.startAll front).1.startAll queue).2 := by
  induction queue generalizing front with
  | nil => exact ⟨[], .nil stores⟩
  | cons document queue ih =>
    obtain ⟨bids, first⟩ : ∃ bids, Beat start documents 0 (start.startAll front).1 [document] bids
        ((start.startAll front).1.start document).1
        ((start.startAll front).1.start document).2.toList := by
      apply beat_start follows stores once
      intro text read
      rw [follows.sourcePath_eq] at read
      exact ⟨front, queue, whole, read⟩
    have next : (start.startAll (front ++ [document])).1 =
        ((start.startAll front).1.start document).1 := startAll_append start front [document]
    -- The document has had its start, so it is one of those in front when the others have theirs.
    obtain ⟨more, rest⟩ := ih (front ++ [document]) (by rw [next]; exact follows.trans first.follows)
      (by rw [next]; exact first.stores) (by rw [whole, List.append_assoc]; rfl)
    rw [next] at rest
    exact ⟨bids ++ more, first.append rest⟩

theorem beat_round (follows : Follows start build) (stores : build.session.StoresRecorded)
    (once : ∀ path, start.workspace.machine.pauses path = 1)
    (at_position : ∀ task ∈ tasks, start.IsAt documents position build.session task) :
    ∃ bids, Beat start documents position build (tasks.map (·.document)) bids
      (build.round tasks).1 (build.round tasks).2 := by
  induction tasks generalizing build with
  | nil => exact ⟨[], .nil stores⟩
  | cons task tasks ih =>
    obtain ⟨bids, first⟩ := beat_turn follows stores once (at_position task List.mem_cons_self)
    obtain ⟨more, rest⟩ := ih (follows.trans first.follows) first.stores fun other member =>
        (at_position other (List.mem_cons_of_mem _ member)).mono first.traced.paths_subset
    exact ⟨bids ++ more, first.append rest⟩

structure Rounds (start : Build) (documents : List Document) (position : Nat) (before : Build)
    (bids : List Bid) (after : Build) : Prop where
  traced : Session.Traced before.session (bids.map (·.attempt)) after.session
  reuses : after.report.reuses = before.report.reuses ++ refusedBids bids
  made : ∀ bid ∈ bids, position ≤ bid.position ∧ start.Makes documents bid
  ordered : bids.Pairwise (Bid.Before documents)

theorem pairwise_idxOf (distinct : documents.Nodup) :
    documents.Pairwise fun first second => documents.idxOf first < documents.idxOf second := by
  rw [List.pairwise_iff_getElem]
  intro i j inside inside' less
  rwa [distinct.idxOf_getElem, distinct.idxOf_getElem]

theorem Rounds.nil (build : Build) : Rounds start documents position build [] build where
  traced := (Session.Keeps.refl build.session).traced
  reuses := (List.append_nil _).symm
  made := by simp
  ordered := .nil

theorem Beat.rounds (distinct : documents.Nodup) (among : queue.Sublist documents)
    (beat : Beat start documents position before queue bids middle opened)
    (later : Rounds start documents (position + 1) middle more after) :
    Rounds start documents position before (bids ++ more) after where
  traced := by rw [List.map_append]; exact beat.traced.append later.traced
  reuses := by rw [later.reuses, beat.reuses, refusedBids_append, List.append_assoc]
  made := by
    refine List.forall_mem_append.2 ⟨fun bid member => ?_, fun bid member => ?_⟩
    next => exact (beat.made bid member).imp_left fun same => same.ge
    next => exact (later.made bid member).imp_left fun less => by omega
  ordered := by
    refine List.pairwise_append.2 ⟨?_, later.ordered, ?_⟩
    next =>
      have order := (pairwise_idxOf distinct).sublist (beat.bidders.trans among)
      refine (List.pairwise_map.1 order).imp_of_mem ?_
      intro first second member member' less
      exact .inr ⟨(beat.made first member).1.trans (beat.made second member').1.symm, less⟩
    next =>
      intro first member second member'
      have here := (beat.made first member).1
      have there := (later.made second member').1
      exact .inl (by omega)

theorem rounds_rounds (distinct : documents.Nodup) (n : Nat) (follows : Follows start build)
    (stores : build.session.StoresRecorded)
    (once : ∀ path, start.workspace.machine.pauses path = 1)
    (at_position : ∀ task ∈ tasks, start.IsAt documents position build.session task)
    (among : (tasks.map (·.document)).Sublist documents) :
    ∃ bids, Rounds start documents position build bids (rounds n build tasks) := by
  induction n generalizing build tasks position with
  | zero => exact ⟨[], .nil build⟩
  | succ n ih =>
    obtain ⟨bids, beat⟩ := beat_round follows stores once at_position
    obtain ⟨more, later⟩ := ih (follows.trans beat.follows) beat.stores beat.at_next
      (beat.waiting.trans among)
    exact ⟨bids ++ more, beat.rounds distinct among later⟩

theorem rounds_settle (distinct : documents.Nodup) (follows : Follows start build)
    (stores : build.session.StoresRecorded)
    (once : ∀ path, start.workspace.machine.pauses path = 1)
    (at_position : ∀ task ∈ tasks, start.IsAt documents position build.session task)
    (among : (tasks.map (·.document)).Sublist documents) :
    ∃ bids, Rounds start documents position build bids (build.settle tasks) := by
  -- Each round moves the position on by one for all documents that are still open.
  fun_induction settle build tasks generalizing position with
  | case1 build tasks faulty =>
    exact rounds_rounds distinct roundsAfterFault follows stores once at_position among
  | case2 build tasks calm ended => exact ⟨[], .nil build⟩
  | case3 build tasks calm moving ih =>
    obtain ⟨bids, beat⟩ := beat_round follows stores once at_position
    obtain ⟨more, later⟩ := ih (follows.trans beat.follows) beat.stores beat.at_next
      (beat.waiting.trans among)
    exact ⟨bids ++ more, beat.rounds distinct among later⟩

theorem rounds_run (distinct : documents.Nodup) (stores : start.session.StoresRecorded)
    (once : ∀ path, start.workspace.machine.pauses path = 1) :
    ∃ bids, Rounds start documents 0 start bids (start.run documents) := by
  obtain ⟨bids, beat⟩ : ∃ bids, Beat start documents 0 start documents bids
      (start.startAll documents).1 (start.startAll documents).2 :=
    beat_startAll [] (.refl start) stores once (List.nil_append documents).symm
  obtain ⟨more, later⟩ := rounds_settle distinct beat.follows beat.stores once beat.at_next
    beat.waiting
  exact ⟨bids ++ more, beat.rounds distinct (List.Sublist.refl documents) later⟩

end Build

theorem exists_winner {R : Bid → Bid → Prop} {bids : List Bid} {before after : Session} {path : Text}
    (traced : Session.Traced before (bids.map (·.attempt)) after) (ordered : bids.Pairwise R)
    (fresh : path ∉ before.ledger.paths) (bidden : ∃ bid ∈ bids, bid.attempt.path = path) :
    ∃ winner ∈ bids, winner.attempt.path = path ∧
      after.ledger.get? path = some winner.attempt.usage ∧
      ∀ other ∈ bids, other.attempt.path = path → other = winner ∨ R winner other := by
  obtain ⟨bid, member, same⟩ := bidden
  cases found : bids.find? (fun bid => bid.attempt.path == path) with
  | none => exact absurd (List.find?_eq_none.1 found bid member) (by simpa using same)
  | some winner =>
    obtain ⟨isFor, earlier, later, rfl, others⟩ := List.find?_eq_some_iff_append.1 found
    have isFor : winner.attempt.path = path := by simpa using isFor
    have earlier_other (other : Bid) (among : other ∈ earlier) : other.attempt.path ≠ path := by
      simpa using others other among
    have passes : winner.attempt.passes = true := by
      have seen := traced.seen (earlier.map (·.attempt)) winner.attempt (later.map (·.attempt))
        (by simp)
      rw [Attempt.passes_iff, Ledger.paths, seen, List.map_append, List.mem_append, not_or, isFor]
      refine ⟨fresh, fun recorded => ?_⟩
      obtain ⟨entry, inRecords, same⟩ := List.mem_map.1 recorded
      obtain ⟨attempt, granted, rfl⟩ := List.mem_map.1 inRecords
      obtain ⟨other, among, rfl⟩ := List.mem_map.1 (List.mem_filter.1 granted).1
      exact earlier_other other among same
    refine ⟨winner, by simp, isFor, ?_, ?_⟩
    next =>
      rw [← isFor]
      exact traced.get?_of_passes (by simp) passes
    next =>
      intro other among isFor'
      rcases List.mem_append.1 among with early | late
      next => exact absurd isFor' (earlier_other other early)
      next =>
        refine (List.mem_cons.1 late).imp_right fun late => ?_
        exact (List.pairwise_cons.1 (List.pairwise_append.1 ordered).2.1).1 other late

/-- The claims of a build come by the positions of the imports in their documents, and those for one
position in the order in which the documents were found, if each read is suspended once. What the
ledger has in the end are those that passed, in this order; those that were refused are the failures
of their documents. A block that was claimed belongs to the first claim for it. -/
theorem buildTree_turns {workspace : Workspace} {session : Session} {source output : Text}
    {report : Report} (tree : workspace.IsTree)
    (once : ∀ path, workspace.machine.pauses path = 1)
    (built : (buildTree workspace session source output).2.2 = .ok report) :
    ∃ documents bids, discover? workspace source session.settings.hostSuffix = some documents ∧
      let start : Build := { source, output, workspace, session := session.reset }
      let after := (buildTree workspace session source output).2.1
      bids.map (·.attempt) = session.attemptsSince after ∧
      (∀ bid ∈ bids, start.Makes documents bid) ∧
      bids.Pairwise (Bid.Before documents) ∧
      (∀ earlier bid later, bids = earlier ++ bid :: later →
        bid.attempt.ledger.entries = records (earlier.map (·.attempt))) ∧
      after.ledger.entries = records (session.attemptsSince after) ∧
      report.reuses = refusedBids bids ∧
      ∀ path, (∃ bid ∈ bids, bid.attempt.path = path) →
        ∃ winner ∈ bids, winner.attempt.path = path ∧
          after.ledger.get? path = some winner.attempt.usage ∧
          ∀ other ∈ bids, other.attempt.path = path →
            other = winner ∨ Bid.Before documents winner other := by
  obtain ⟨documents, found, ⟨isThere, located⟩, -, reported, -⟩ := exists_run_of_report built
  let start : Build := { source, output, workspace, session := session.reset }
  have ended : (buildTree workspace session source output).2.1 = (start.run documents).session := by
    rw [buildTree_of_discover found located]
  have empty : start.session.ledger.entries = [] := rfl
  have stores : start.session.StoresRecorded := fun _ _ => rfl
  obtain ⟨bids, rounds⟩ := Build.rounds_run (nodup_discover tree found) stores once
  have attempts : session.attemptsSince (start.run documents).session = bids.map (·.attempt) :=
    rounds.traced.attemptsSince_eq
  refine ⟨documents, bids, found, ?_⟩
  dsimp only
  rw [ended, attempts]
  refine ⟨rfl, fun bid member => (rounds.made bid member).2, rounds.ordered, ?_, ?_, ?_, ?_⟩
  next =>
    intro earlier bid later split
    have seen := rounds.traced.seen (earlier.map (·.attempt)) bid.attempt (later.map (·.attempt))
      (by simp [← List.map_cons, ← List.map_append, ← split])
    rw [seen, empty, List.nil_append]
  next => rw [rounds.traced.entries, empty, List.nil_append]
  next =>
    rw [← reported]
    exact rounds.reuses
  next => exact fun path => exists_winner rounds.traced rounds.ordered List.not_mem_nil

def contendedFiles : List (Text × Bytes) :=
  [("A.svelte", "import X from \"./x.svelte.xblock\";import Y from \"./y.svelte.xblock\";<X/>"),
    ("B.svelte", "import Y from \"./y.svelte.xblock\";<Y/>"), ("x.svelte.xblock", "<p/>"),
    ("y.svelte.xblock", "<q/>")].map fun (name, text) => (name.toList, Utf8.encode text.toList)

def contendedPages : Workspace :=
  ofSources contendedFiles

theorem isTree_contendedPages : contendedPages.IsTree :=
  isTree_ofSources (by decide) (by decide)

theorem buildTree_turns_of_contended_block : ∃ report,
    (buildTree contendedPages {} "/src".toList "/out".toList).2.2 = .ok report ∧
      report.reuses.map Prod.fst = ["A.svelte".toList] ∧
      (buildTree contendedPages {} "/src".toList "/out".toList).2.1.ledger.entries =
        [("/src/x.svelte.xblock".toList, ⟨"/src/A.svelte".toList, ['X']⟩),
          ("/src/y.svelte.xblock".toList, ⟨"/src/B.svelte".toList, ['Y']⟩)] := by
  have found : discover? contendedPages "/src".toList ".svelte".toList =
      some (documentsOf ["A.svelte".toList, "B.svelte".toList]) :=
    discover_ofSources (by decide +kernel) (by decide +kernel)
  let started := Build.ofSources contendedFiles {} "/out".toList
  let ended := started.after 1 (documentsOf ["A.svelte".toList, "B.svelte".toList])
  -- The first page is refused its second block, so one round follows the first turns.
  have course : started.isDoneAfter 1 (documentsOf ["A.svelte".toList, "B.svelte".toList]) = true ∧
      ended.report.reuses.map Prod.fst = ["A.svelte".toList] ∧
      records (({} : Session).attemptsSince ended.session) =
        [("/src/x.svelte.xblock".toList, ⟨"/src/A.svelte".toList, ['X']⟩),
          ("/src/y.svelte.xblock".toList, ⟨"/src/B.svelte".toList, ['Y']⟩)] := by decide +kernel
  have built : buildTree contendedPages {} "/src".toList "/out".toList =
      (ended.workspace, ended.session, .ok ended.report) :=
    buildTree_ofSources "/out".toList rfl found course.1
  have reported : (buildTree contendedPages {} "/src".toList "/out".toList).2.2 = .ok ended.report := by
    rw [built]
  obtain ⟨documents, bids, -, -, -, -, -, entries, -, -⟩ :=
    buildTree_turns isTree_contendedPages (fun _ => rfl) reported
  refine ⟨ended.report, reported, course.2.1, entries.trans ?_⟩
  rw [built]
  exact course.2.2

end Inlay
