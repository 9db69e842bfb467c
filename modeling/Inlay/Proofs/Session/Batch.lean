import Inlay.Proofs.Session.Alone
import Mathlib.Data.List.Perm.Subperm

set_option autoImplicit false

namespace Inlay.Session

open Text

variable {reader actual : Reader} {session shared next after : Session}
variable {documents order : List (Text × Text)} {results : List (Except Failure (Option Text))}
variable {prospect : Prospect} {prospects : List Prospect}
variable {task : Task} {tasks moved settled : List Task} {attempts : List Attempt}

-- A task is on its way to what is to come of it, unless a claim of it was refused.
def OnWay (reader : Reader) (shared : Session) (prospect : Prospect) (task : Task) : Prop :=
  task.job.IsRefused ∨ Heads reader task.document shared task.job prospect

theorem OnWay.mono (state : OnWay reader shared prospect task) (offers : shared.Offers next) :
    OnWay reader next prospect task :=
  state.imp_right fun heads => heads.mono offers

/-- No answer changes, and unless a claim is refused, what was to come is on record or to come. -/
structure Carried (reader : Reader) (shared : Session) (prospects : List Prospect)
    (tasks : List Task) (next : Session) (moved : List Task) : Prop where
  offers : shared.Offers next
  onWay : ∃ later : List Prospect, List.Forall₂ (OnWay reader next) later moved ∧
    later.map (·.answer) = prospects.map (·.answer) ∧
    ((∀ task ∈ moved, ¬ task.job.IsRefused) → (∀ task ∈ tasks, ¬ task.job.IsRefused) ∧
      (next.ledger.entries ++ later.flatMap (·.records)).Perm
        (shared.ledger.entries ++ prospects.flatMap (·.records)))

theorem Carried.refl (state : List.Forall₂ (OnWay reader shared) prospects tasks) :
    Carried reader shared prospects tasks shared tasks :=
  ⟨.refl shared, prospects, state, rfl, fun quiet => ⟨quiet, .refl _⟩⟩

theorem OnWay.turn (agrees : ∀ path, reader.AgreesAt actual path)
    (state : OnWay reader shared prospect task) :
    let outcome := shared.turn actual task.document task.job
    Carried reader shared [prospect] [task] outcome.1 [⟨task.document, outcome.2⟩] := by
  rcases state with ⟨result, job, failed⟩ | heads
  next =>
    -- A refused task stands still.
    have still : shared.turn actual task.document task.job = (shared, .finished result) := by
      rw [job]
      rfl
    rw [still]
    have refused : (Job.finished result).IsRefused := ⟨result, rfl, failed⟩
    refine ⟨.refl shared, [prospect], .cons (.inl refused) .nil, rfl, ?_⟩
    intro quiet
    exact absurd refused (quiet _ List.mem_cons_self)
  next =>
    have running : (shared.turn actual task.document task.job).2.IsRefused ∨
        ¬ task.job.IsRefused := by
      by_cases refused : task.job.IsRefused
      next =>
        obtain ⟨result, job, failed⟩ := refused
        rw [job]
        exact .inl ⟨result, rfl, failed⟩
      next => exact .inr refused
    have progress := heads.turn fun reference _ => agrees reference.path
    obtain ⟨offers, refused | ⟨made, later, split, entries, onward⟩⟩ := progress
    next =>
      refine ⟨offers, [prospect], .cons (.inl refused) .nil, rfl, ?_⟩
      intro quiet
      exact absurd refused (quiet _ List.mem_cons_self)
    next =>
      refine ⟨offers, [⟨prospect.answer, later⟩], .cons (.inr onward) .nil, rfl, ?_⟩
      intro quiet
      refine ⟨?_, ?_⟩
      next => simpa using running.resolve_left (quiet _ List.mem_cons_self)
      next => simp [entries, split]

theorem Carried.cons {turned : Task} (head : Carried reader shared [prospect] [task] next [turned])
    (rest : Carried reader next prospects tasks after moved) :
    Carried reader shared (prospect :: prospects) (task :: tasks) after (turned :: moved) := by
  obtain ⟨offers, first, state, answer, balance⟩ := head
  obtain ⟨offers', later, state', answers, balance'⟩ := rest
  obtain ⟨onward, ends⟩ : ∃ onward, first = [onward] := by
    cases state with
    | cons _ rest => cases rest; exact ⟨_, rfl⟩
  subst ends
  rw [List.forall₂_cons] at state
  refine ⟨offers.trans offers', onward :: later, .cons (state.1.mono offers') state', ?_, ?_⟩
  next => simpa [answers] using answer
  next =>
    intro quiet
    obtain ⟨here, records⟩ := balance (by simpa using quiet turned (by simp))
    obtain ⟨there, records'⟩ := balance' fun other member => quiet other (by simp [member])
    refine ⟨List.forall_mem_cons.2 ⟨here task (by simp), there⟩, ?_⟩
    rw [List.perm_iff_count] at records records' ⊢
    intro entry
    have count := records entry
    have count' := records' entry
    simp only [List.flatMap_cons, List.flatMap_nil, List.append_nil, List.count_append] at *
    omega

theorem Carried.trans (early : Carried reader shared prospects tasks next moved)
    (late : ∀ later : List Prospect, List.Forall₂ (OnWay reader next) later moved →
      Carried reader next later moved after settled) :
    Carried reader shared prospects tasks after settled := by
  obtain ⟨offers, later, state, answers, balance⟩ := early
  obtain ⟨offers', final, state', answers', balance'⟩ := late later state
  refine ⟨offers.trans offers', final, state', answers'.trans answers, ?_⟩
  intro quiet
  obtain ⟨quiet', records'⟩ := balance' quiet
  obtain ⟨quiet'', records⟩ := balance quiet'
  exact ⟨quiet'', records'.trans records⟩

theorem carried_round (agrees : ∀ path, reader.AgreesAt actual path)
    (state : List.Forall₂ (OnWay reader shared) prospects tasks) :
    Carried reader shared prospects tasks (shared.round actual tasks).1
      (shared.round actual tasks).2 := by
  induction tasks generalizing shared prospects with
  | nil => exact .refl state
  | cons task tasks ih =>
    cases state with
    | cons head rest =>
      have turned := head.turn agrees
      exact turned.cons (ih (rest.imp fun _ _ state => state.mono turned.offers))

theorem carried_settle (agrees : ∀ path, reader.AgreesAt actual path)
    (state : List.Forall₂ (OnWay reader shared) prospects tasks) :
    Carried reader shared prospects tasks (shared.settle actual tasks).1
      (shared.settle actual tasks).2 := by
  fun_induction settle actual shared tasks generalizing prospects with
  | case1 shared tasks ended => exact .refl state
  | case2 shared tasks running ih => exact (carried_round agrees state).trans fun _ state => ih state

theorem answers_of_onWay (state : List.Forall₂ (OnWay reader shared) prospects tasks)
    (ended : ∀ task ∈ tasks, ∃ result, task.job = .finished result) :
    List.Forall₂ (fun answer result => Refused result ∨ result = answer) (prospects.map (·.answer))
      (tasks.filterMap fun task => task.job.result?) := by
  induction state with
  | nil => exact .nil
  | @cons prospect task prospects tasks head rest ih =>
    obtain ⟨result, job⟩ := ended task (by simp)
    have later := ih fun other member => ended other (by simp [member])
    rw [List.map_cons, List.filterMap_cons, job]
    refine .cons ?_ later
    rcases head with ⟨other, job', refused⟩ | heads
    next =>
      cases job.symm.trans job'
      exact .inl refused
    next =>
      rw [job] at heads
      exact .inr (by rw [heads.of_finished])

theorem records_of_onWay (state : List.Forall₂ (OnWay reader shared) prospects tasks)
    (ended : ∀ task ∈ tasks, ∃ result, task.job = .finished result)
    (quiet : ∀ task ∈ tasks, ¬ task.job.IsRefused) : prospects.flatMap (·.records) = [] := by
  induction state with
  | nil => rfl
  | @cons prospect task prospects tasks head rest ih =>
    obtain ⟨result, job⟩ := ended task (by simp)
    have heads := head.resolve_left (quiet task (by simp))
    rw [job] at heads
    rw [List.flatMap_cons, heads.of_finished, ih (fun other member => ended other (by simp [member]))
      fun other member => quiet other (by simp [member])]
    rfl

/-- Documents and their answers, each that of the document alone unless a claim was refused. Without
a refusal the records are those of the documents alone as well. -/
structure AsAlone (reader : Reader) (session shared : Session) (documents : List (Text × Text))
    (after : Session) (results : List (Except Failure (Option Text))) : Prop where
  offers : shared.Offers after
  answers : List.Forall₂ (fun document result =>
    Refused result ∨ result = (session.transform reader document.1 document.2).2) documents results
  entries : (∀ result ∈ results, ¬ Refused result) → after.ledger.entries.Perm
    (shared.ledger.entries ++ documents.flatMap fun document =>
      records (session.transformAttempts reader document.1 document.2))

theorem asAlone_transformAll (agrees : ∀ path, reader.AgreesAt actual path) (session : Session)
    (documents : List (Text × Text)) :
    let outcome := session.transformAll actual documents
    AsAlone reader session session documents outcome.1 outcome.2 := by
  let prospects := documents.map fun document => session.prospectOf reader document.1 document.2
  let tasks := documents.map fun document =>
    Task.ofText session.settings.blockSuffix document.1 document.2
  have start : List.Forall₂ (OnWay reader session) prospects tasks := by
    rw [List.forall₂_map_left_iff, List.forall₂_map_right_iff, List.forall₂_same]
    exact fun document _ => .inr (heads_ready (.refl session) reader document.1 document.2)
  obtain ⟨offers, later, state, answers, balance⟩ := carried_settle agrees start
  have ended := exists_result (turnsLeft_settle actual session tasks)
  constructor
  case offers => exact offers
  case answers =>
    have results := answers_of_onWay state ended
    rw [answers, List.map_map, List.forall₂_map_left_iff] at results
    exact results
  case entries =>
    intro quiet
    have unrefused : ∀ task ∈ (session.settle actual tasks).2, ¬ task.job.IsRefused := by
      rintro task member ⟨result, job, refused⟩
      apply quiet result _ refused
      exact List.mem_filterMap.2 ⟨task, member, by rw [job]; rfl⟩
    have records := (balance unrefused).2
    rw [records_of_onWay state ended unrefused, List.append_nil, List.flatMap_map] at records
    exact records

def transformEach (reader : Reader) :
    Session → List (Text × Text) → Session × List (Except Failure (Option Text))
  | session, [] => (session, [])
  | session, (document, text) :: documents =>
    let (session, result) := session.transform reader document text
    let (session, results) := transformEach reader session documents
    (session, result :: results)

-- In a run these are steps like others.
theorem steps_transform (run : Run) (documents : List (Text × Text)) :
    run.steps (documents.map fun (document, text) => .transform document text) =
      let outcome := run.session.transformEach run.supply.reader documents
      ({ run with session := outcome.1 }, outcome.2.map .code) := by
  induction documents generalizing run with
  | nil => rfl
  | cons head documents ih =>
    obtain ⟨document, text⟩ := head
    have rest := ih (run.step (.transform document text)).1
    rw [List.map_cons, Run.steps]
    dsimp only
    rw [rest]
    rfl

theorem asAlone_transform (offers : session.Offers shared) (reader : Reader)
    (document text : Text) :
    let outcome := shared.transform reader document text
    AsAlone reader session shared [(document, text)] outcome.1 [outcome.2] := by
  have heads := heads_ready offers reader document text
  rw [offers.settings] at heads
  have agrees (reference : Import) : reader.AgreesAt reader.still reference.path := rfl
  have progress := heads.turn fun reference _ => agrees reference
  rw [turn_still_ready] at progress
  obtain ⟨onward, refused | ⟨made, later, split, entries, ended⟩⟩ := progress
  next =>
    obtain ⟨result, same, refused⟩ := refused
    cases same
    refine ⟨onward, .cons (.inl refused) .nil, ?_⟩
    intro quiet
    exact absurd refused (quiet _ (by simp))
  next =>
    have ends := ended.of_finished
    injection ends with answer rest
    refine ⟨onward, .cons (.inr answer.symm) .nil, ?_⟩
    intro _
    rw [rest, List.append_nil] at split
    rw [entries, ← split]
    simp [prospectOf]

theorem asAlone_transformEach (offers : session.Offers shared) (reader : Reader)
    (documents : List (Text × Text)) :
    let outcome := shared.transformEach reader documents
    AsAlone reader session shared documents outcome.1 outcome.2 := by
  induction documents generalizing shared with
  | nil => exact ⟨.refl shared, .nil, fun _ => by simp [transformEach]⟩
  | cons head documents ih =>
    obtain ⟨document, text⟩ := head
    have first := asAlone_transform offers reader document text
    have rest := ih (offers.trans first.offers)
    constructor
    case offers => exact first.offers.trans rest.offers
    case answers => exact .cons (List.forall₂_cons.1 first.answers).1 rest.answers
    case entries =>
      intro quiet
      have here := first.entries (List.forall_mem_singleton.2 (quiet _ List.mem_cons_self))
      have there := rest.entries fun result member => quiet result (List.mem_cons_of_mem _ member)
      refine there.trans ?_
      simpa using here.append_right _

theorem exists_called_transformEach (reader : Reader) (session : Session)
    (documents : List (Text × Text)) :
    let outcome := session.transformEach reader documents
    ∃ attempts, Called session attempts outcome.1 (answered documents outcome.2) := by
  induction documents generalizing session with
  | nil => exact ⟨[], called_of_keeps (.refl session)⟩
  | cons head documents ih =>
    obtain ⟨document, text⟩ := head
    obtain ⟨attempts, first⟩ := called_transform reader session document text
    obtain ⟨others, rest⟩ := ih (session.transform reader document text).1
    exact ⟨attempts ++ others, first.append rest⟩

-- The imports of some documents, one document after the other.
def importsOf (session : Session) (documents : List (Text × Text)) : List Import :=
  documents.flatMap fun (document, text) =>
    Import.scan session.settings.blockSuffix document text

structure Unshared (session : Session) (documents : List (Text × Text)) : Prop where
  distinct : ((session.importsOf documents).map (·.path)).Nodup
  fresh : ∀ reference ∈ session.importsOf documents, reference.path ∉ session.ledger.paths

theorem Unshared.perm (unshared : session.Unshared documents) (same : order.Perm documents) :
    session.Unshared order := by
  have imports : (session.importsOf order).Perm (session.importsOf documents) :=
    same.flatMap_right _
  refine ⟨(imports.map _).nodup_iff.2 unshared.distinct, ?_⟩
  exact fun reference member => unshared.fresh reference (imports.mem_iff.1 member)

theorem Called.refusals_eq_nil (called : Called session attempts after (answered documents results))
    (aligned : results.length = documents.length) (unshared : session.Unshared documents) :
    refusals attempts = [] := by
  have once := called.once
  rw [claims_answered _ aligned] at once
  have within : (attempts.map (·.reference)).Subperm (session.importsOf documents) := by
    obtain ⟨part, perm, sublist⟩ := List.subperm_iff_count.2 once
    have imports : (documents.flatMap fun (document, text) =>
        (Import.scan session.settings.blockSuffix document text).map (Claim.mk document)).map
          (·.reference) = session.importsOf documents := by
      simp [importsOf, List.map_flatMap, Function.comp_def]
    have references := perm.map (·.reference)
    rw [List.map_map] at references
    exact ⟨_, references, imports ▸ sublist.map (·.reference)⟩
  have distinct : (attempts.map (·.path)).Nodup := by
    obtain ⟨part, perm, sublist⟩ := within
    have nodup := (perm.map (·.path)).nodup_iff.1 ((sublist.map _).nodup unshared.distinct)
    rwa [List.map_map] at nodup
  rw [List.eq_nil_iff_forall_not_mem]
  intro failure member
  obtain ⟨attempt, member, refused⟩ := List.mem_filterMap.1 member
  have refused : attempt.passes = false := by
    cases outcome : attempt.outcome with
    | ok next => simp [Attempt.refusal?, outcome] at refused
    | error failure => simp [Attempt.passes, outcome]
  -- The record in its way was there before, or an earlier attempt for the same path made it.
  obtain ⟨earlier, later, split⟩ := List.append_of_mem member
  obtain ⟨original, recorded, -⟩ := exists_original refused
  rw [called.traced.seen earlier attempt later split, List.mem_append] at recorded
  rcases recorded with before | made
  next =>
    have imported := within.subset (List.mem_map_of_mem member)
    exact unshared.fresh attempt.reference imported (List.mem_map_of_mem before)
  next =>
    obtain ⟨other, granted, same⟩ := List.mem_map.1 made
    rw [split, List.map_append, List.map_cons, List.nodup_middle, List.nodup_cons] at distinct
    apply distinct.1
    rw [← (Prod.mk.inj same).1]
    exact List.mem_append_left _ (List.mem_map_of_mem (List.mem_of_mem_filter granted))

theorem results_answered (aligned : results.length = documents.length) :
    (answered documents results).map (·.result) = results := by
  induction documents generalizing results with
  | nil =>
    rw [List.eq_nil_of_length_eq_zero aligned]
    rfl
  | cons document documents ih =>
    cases results with
    | nil => simp at aligned
    | cons result results => exact congrArg (result :: ·) (ih (Nat.succ.inj aligned))

theorem Called.not_refused (called : Called session attempts after (answered documents results))
    (aligned : results.length = documents.length) (unshared : session.Unshared documents) :
    ∀ result ∈ results, ¬ Refused result := by
  have quiet := called.refused
  rw [called.refusals_eq_nil aligned unshared, List.perm_nil, List.flatMap_eq_nil_iff] at quiet
  rintro result member ⟨failure, rfl, reuse⟩
  rw [← results_answered aligned] at member
  obtain ⟨call, member, same⟩ := List.mem_map.1 member
  have none := quiet call member
  simp [Call.refusals, same, Job.refusals, reuse] at none

def AllSucceed (results : List (Except Failure (Option Text))) : Prop :=
  ∀ result ∈ results, ∃ code, result = .ok code

theorem AllSucceed.not_refused (success : AllSucceed results) :
    ∀ result ∈ results, ¬ Refused result := by
  rintro result member ⟨failure, rfl, -⟩
  obtain ⟨code, same⟩ := success _ member
  cases same

theorem AsAlone.eq_map (alone : AsAlone reader session shared documents after results)
    (quiet : ∀ result ∈ results, ¬ Refused result) :
    results = documents.map fun document =>
      (session.transform reader document.1 document.2).2 := by
  have answers := alone.answers
  clear alone
  induction answers with
  | nil => rfl
  | @cons document result documents results head rest ih =>
    have here := head.resolve_left (quiet result List.mem_cons_self)
    have there := ih fun other member => quiet other (List.mem_cons_of_mem _ member)
    rw [List.map_cons, ← here, ← there]

theorem paths_of_transform (reader : Reader) (session : Session) (document text : Text)
    {code : Option Text} (success : (session.transform reader document text).2 = .ok code) :
    (records (session.transformAttempts reader document text)).map Prod.fst =
      (Import.scan session.settings.blockSuffix document text).map (·.path) := by
  have covers := (worked_transform reader session document text).covers
  rw [success] at covers
  rcases covers with failed | whole
  next => cases failed
  next => rw [whole, Job.pending, List.append_nil, paths_records]

-- Each block of documents that all succeed has a record of its own.
theorem AsAlone.unshared (alone : AsAlone reader session session documents after results)
    (success : AllSucceed results) : session.Unshared documents := by
  have same := alone.eq_map success.not_refused
  have entries := (alone.entries success.not_refused).map Prod.fst
  have paths : (documents.flatMap fun document =>
      records (session.transformAttempts reader document.1 document.2)).map Prod.fst =
      (session.importsOf documents).map (·.path) := by
    rw [List.map_flatMap, importsOf, List.map_flatMap]
    apply List.flatMap_congr
    intro document member
    obtain ⟨code, ok⟩ := success _ (same ▸ List.mem_map_of_mem member)
    exact paths_of_transform reader session document.1 document.2 ok
  have distinct := entries.nodup_iff.1 after.ledger.distinct
  rw [List.map_append, paths, List.nodup_append] at distinct
  refine ⟨distinct.2.1, ?_⟩
  intro reference member recorded
  exact distinct.2.2 _ recorded _ (List.mem_map_of_mem member) rfl

theorem AsAlone.allSucceed_iff (alone : AsAlone reader session session documents after results)
    (called : Called session attempts after (answered documents results)) :
    AllSucceed results ↔ session.Unshared documents ∧
      ∀ document ∈ documents, ∃ code,
        (session.transform reader document.1 document.2).2 = .ok code := by
  constructor
  next =>
    intro success
    refine ⟨alone.unshared success, ?_⟩
    rw [alone.eq_map success.not_refused] at success
    exact fun document member => success _ (List.mem_map_of_mem member)
  next =>
    rintro ⟨unshared, each⟩
    rw [alone.eq_map (called.not_refused alone.answers.length_eq.symm unshared)]
    intro result member
    obtain ⟨document, among, rfl⟩ := List.mem_map.1 member
    exact each document among

theorem drop_entries_transform (reader : Reader) (session : Session) (document text : Text) :
    (session.transform reader document text).1.ledger.entries.drop session.ledger.size =
      records (session.transformAttempts reader document text) := by
  have entries := (worked_transform reader session document text).traced.entries
  rw [entries, Ledger.size, List.drop_left]

/-- Documents that share no block do not interfere: in every order and with all suspensions each
answers what it answers alone, and the records are those that each makes alone. -/
theorem transformAll_of_unshared (reader : Reader) (session : Session)
    {documents order : List (Text × Text)} (unshared : session.Unshared documents)
    (same : order.Perm documents) (pauses : Text → Nat) :
    let outcome := session.transformAll { reader with pauses } order
    outcome.2 = order.map (fun document =>
      (session.transform reader document.1 document.2).2) ∧
    (∀ result ∈ outcome.2, ¬ Refused result) ∧
    outcome.1.ledger.entries.Perm (session.ledger.entries ++ documents.flatMap fun document =>
      (session.transform reader document.1 document.2).1.ledger.entries.drop
        session.ledger.size) := by
  have agrees (path : Text) : reader.AgreesAt { reader with pauses } path := rfl
  have alone := asAlone_transformAll agrees session order
  obtain ⟨_, called⟩ := called_transformAll { reader with pauses } session order
  have quiet := called.not_refused alone.answers.length_eq.symm (unshared.perm same)
  refine ⟨alone.eq_map quiet, quiet, (alone.entries quiet).trans ?_⟩
  simp only [drop_entries_transform]
  exact (same.flatMap_right _).append_left _

theorem transformAll_of_unshared_of_missing_block :
    let path : Text := "/src/a.svelte.xblock"
    let reader : Reader :=
      { read := fun asked => if asked = path then .ok "<p/>".toList else .error (.missing asked) }
    let first : Text × Text := ("/src/A.svelte", "import A from \"./a.svelte.xblock\";<A/>")
    let second : Text × Text := ("/src/B.svelte", "import B from \"./b.svelte.xblock\";")
    let session : Session := {}
    session.Unshared [first, second] ∧
      (session.transformAll { reader with pauses := fun _ => 2 } [second, first]).2 =
        [.error (.unreadable "./b.svelte.xblock" "/src/b.svelte.xblock"),
          .ok (some "<p/>".toList)] := by
  intro path reader first second session
  have unshared : session.Unshared [first, second] :=
    ⟨by decide +kernel, by decide +kernel⟩
  obtain ⟨answers, -, -⟩ := transformAll_of_unshared reader session unshared
    (List.Perm.swap first second []) fun _ => 2
  exact ⟨unshared, answers.trans (by decide +kernel)⟩

/-- Whether all documents succeed depends on neither their order nor the suspensions, and it is the
same side by side and one after the other. When they do, so does each alone, with the same answer.
-/
theorem transformAll_success_iff (reader : Reader) (session : Session)
    {documents order : List (Text × Text)} (same : order.Perm documents) (pauses : Text → Nat) :
    let answer := fun document : Text × Text =>
      (session.transform reader document.1 document.2).2
    let batch := (session.transformAll reader documents).2
    let other := (session.transformAll { reader with pauses } order).2
    let series := (session.transformEach reader order).2
    (AllSucceed batch ↔ session.Unshared documents ∧
      ∀ document ∈ documents, ∃ code, answer document = .ok code) ∧
    (AllSucceed batch ↔ AllSucceed other) ∧
    (AllSucceed batch ↔ AllSucceed series) ∧
    (AllSucceed batch → batch = documents.map answer ∧ other = order.map answer ∧
      series = order.map answer) := by
  intro answer batch other series
  have same_reader (path : Text) : reader.AgreesAt reader path := rfl
  have agrees (path : Text) : reader.AgreesAt { reader with pauses } path := rfl
  have alone := asAlone_transformAll same_reader session documents
  have alone' := asAlone_transformAll agrees session order
  have alone'' := asAlone_transformEach (.refl session) reader order
  obtain ⟨_, called⟩ := called_transformAll reader session documents
  obtain ⟨_, called'⟩ := called_transformAll { reader with pauses } session order
  obtain ⟨_, called''⟩ := exists_called_transformEach reader session order
  have batch_iff := alone.allSucceed_iff called
  have other_iff := alone'.allSucceed_iff called'
  have series_iff := alone''.allSucceed_iff called''
  -- Neither condition hangs on the order.
  have conditions : (session.Unshared documents ∧
      ∀ document ∈ documents, ∃ code, answer document = .ok code) ↔
      session.Unshared order ∧ ∀ document ∈ order, ∃ code, answer document = .ok code := by
    constructor
    next =>
      rintro ⟨unshared, each⟩
      exact ⟨unshared.perm same, fun document member => each document (same.mem_iff.1 member)⟩
    next =>
      rintro ⟨unshared, each⟩
      exact ⟨unshared.perm same.symm, fun document member => each document (same.mem_iff.2 member)⟩
  have same_other := batch_iff.trans (conditions.trans other_iff.symm)
  have same_series := batch_iff.trans (conditions.trans series_iff.symm)
  refine ⟨batch_iff, same_other, same_series, ?_⟩
  intro success
  exact ⟨alone.eq_map success.not_refused, alone'.eq_map (same_other.1 success).not_refused,
    alone''.eq_map (same_series.1 success).not_refused⟩

theorem transformAll_success_iff_of_contended_block :
    let reader : Reader := { read := fun _ => .ok "<p/>".toList, pauses := fun _ => 1 }
    let first : Text × Text := ("/src/A.svelte", "import A from \"./a.svelte.xblock\";")
    let second : Text × Text := ("/src/B.svelte", "import B from \"./a.svelte.xblock\";")
    let session : Session := {}
    [second, first].Perm [first, second] ∧
      ¬ AllSucceed (session.transformAll reader [first, second]).2 ∧
      ¬ AllSucceed (session.transformEach reader [second, first]).2 := by
  intro reader first second session
  have swapped : [second, first].Perm [first, second] := .swap first second []
  obtain ⟨criterion, -, series, -⟩ :=
    transformAll_success_iff reader session swapped fun _ => 0
  have shared : ¬ ((session.importsOf [first, second]).map (·.path)).Nodup := by decide +kernel
  have fails : ¬ AllSucceed (session.transformAll reader [first, second]).2 := by
    intro success
    exact shared (criterion.1 success).1.distinct
  exact ⟨swapped, fails, fun success => fails (series.2 success)⟩

end Inlay.Session
