import Inlay.Proofs.Session.Operations
import Inlay.Proofs.Text.Order
import Mathlib.Data.List.Sort

set_option autoImplicit false

namespace Inlay

open Text Markup Script

def graft (current : Text) (reference : Import) (block : Block) : Text :=
  let bare := replaceFirst reference.statement [] current
  let filled := Placeholder.fill reference.name block.template (mergeScripts bare block.scripts)
  mergeStyles filled block.styles

theorem weave_of_disjoint {document current : Text} {reference : Import} {block : Block}
    (disjoint : clashes (declaredNames current) (declaredNamesOf block.scripts) = []) :
    weave document current reference block = .ok (graft current reference block) := by
  simp [weave, disjoint, graft]

theorem weave_of_clashes {document current : Text} {reference : Import} {block : Block}
    (shared : clashes (declaredNames current) (declaredNamesOf block.scripts) ≠ []) :
    weave document current reference block = .error (.clash document reference.blockPath
      (clashes (declaredNames current) (declaredNamesOf block.scripts))) := by
  unfold weave
  split
  next none => exact absurd none shared
  next => rfl

theorem mem_clashes {name : Text} {host block : List Text} :
    name ∈ clashes host block ↔ name ∈ host ∧ name ∈ block := by
  simp [clashes, mem_sortedSet]

namespace Session

variable (reader : Reader) (session : Session) (document text : Text)

def textAfter (done : List Import) : Text :=
  done.foldl (fun current reference =>
    match session.blockFrom reader reference.path with
    | .ok block => graft current reference block
    | .error _ => current) text

-- The usages on record once some imports were claimed.
def usagesAfter (done : List Import) : List (Text × Usage) :=
  session.ledger.entries ++ done.map (Import.record document)

/-- A usage on record counts before a failed read, and that before names that are declared twice. -/
inductive Obstructs (done : List Import) (reference : Import) : Failure → Prop
  | reused {earlier : Usage}
      (recorded : (session.usagesAfter document done).lookup reference.path = some earlier) :
      Obstructs done reference (.reused (shownPath reference.blockPath reference.path)
        ⟨document, reference.name⟩ earlier (session.usagesAfter document done))
  | unreadable {cause : FileFault}
      (fresh : reference.path ∉ (session.usagesAfter document done).map Prod.fst)
      (unknown : session.store.knows reference.path = false)
      (failed : reader.read reference.path = .error cause) :
      Obstructs done reference
        (.unreadable (shownPath reference.blockPath reference.path) reference.path)
  | clash {block : Block} {names : List Text}
      (fresh : reference.path ∉ (session.usagesAfter document done).map Prod.fst)
      (served : session.blockFrom reader reference.path = .ok block)
      (nonempty : names ≠ [])
      (increasing : names.Pairwise Precedes)
      (shared : ∀ name, name ∈ names ↔ name ∈ declaredNames (session.textAfter reader text done) ∧
        name ∈ declaredNamesOf block.scripts) :
      Obstructs done reference (.clash document reference.blockPath names)

def IsFree (done : List Import) (reference : Import) : Prop :=
  ∀ failure, ¬ session.Obstructs reader document text done reference failure

def FreeAt (references : List Import) (k : Nat) : Prop :=
  ∀ reference, references[k]? = some reference →
    session.IsFree reader document text (references.take k) reference

structure StopsAt (references : List Import) (k : Nat) (failure : Failure) : Prop where
  free : ∀ i < k, session.FreeAt reader document text references i
  obstructed : ∃ reference, references[k]? = some reference ∧
    session.Obstructs reader document text (references.take k) reference failure

structure Leaves (recorded : List Import) (after : Session) : Prop where
  settings : after.settings = session.settings
  usages : after.ledger.entries = session.usagesAfter document recorded
  raw : ∀ path, after.store.raw? path =
    if path ∈ recorded.map (·.path) ∧ session.store.knows path = false
    then (reader.read path).toOption else session.store.raw? path
  elsewhere : ∀ path, path ∉ recorded.map (·.path) →
    after.store.entry path = session.store.entry path
  reads : after.reads = session.reads ++
    (recorded.map (·.path)).filter fun path => !session.store.knows path

inductive Course : List Import → List Import → Except Failure Text → List Import → Prop
  | finished {done : List Import} :
      Course done [] (.ok (session.textAfter reader text done)) done
  | stopped {done rest : List Import} {reference : Import} {failure : Failure}
      (obstructed : session.Obstructs reader document text done reference failure) :
      Course done (reference :: rest) (.error failure)
        (if failure.isReuse then done else done ++ [reference])
  | merged {done rest recorded : List Import} {reference : Import} {result : Except Failure Text}
      (free : session.IsFree reader document text done reference)
      (later : Course (done ++ [reference]) rest result recorded) :
      Course done (reference :: rest) result recorded

variable {reader session document text}
variable {before middle after : Session} {done rest recorded : List Import} {reference : Import}
variable {failure : Failure} {block : Block}

theorem leaves_nil (reader : Reader) (session : Session) (document : Text) :
    session.Leaves reader document [] session where
  settings := rfl
  usages := by simp [usagesAfter]
  raw := by simp
  elsewhere := fun _ _ => rfl
  reads := by simp

theorem map_fst_usagesAfter : (session.usagesAfter document done).map Prod.fst =
    session.ledger.paths ++ done.map (·.path) := by
  simp [usagesAfter, Ledger.paths, Import.record, Function.comp_def]

theorem not_mem_done (fresh : reference.path ∉ (session.usagesAfter document done).map Prod.fst) :
    reference.path ∉ done.map (·.path) := by
  rw [map_fst_usagesAfter, List.mem_append, not_or] at fresh
  exact fresh.2

theorem Leaves.paths (left : session.Leaves reader document done before) :
    before.ledger.paths = (session.usagesAfter document done).map Prod.fst := by
  rw [Ledger.paths, left.usages]

theorem Leaves.get?_eq (left : session.Leaves reader document done before) (path : Text) :
    before.ledger.get? path = (session.usagesAfter document done).lookup path := by
  rw [Ledger.get?, left.usages]

-- One import more, claimed and served: since its path is new, its block is the one that the first
-- session had for it.
theorem Leaves.append (left : session.Leaves reader document done before)
    (claimed : Claimed document reference before middle)
    (served : Served reader reference.path middle after) :
    session.Leaves reader document (done ++ [reference]) after := by
  have fresh := claimed.fresh
  rw [left.paths] at fresh
  have same := left.elsewhere reference.path (not_mem_done fresh)
  constructor
  case settings => rw [served.settings, claimed.settings, left.settings]
  case usages =>
    rw [served.ledger, claimed.entries, left.usages]
    simp [usagesAfter, Import.record]
  case raw =>
    intro path
    by_cases here : path = reference.path
    next =>
      subst here
      have raw : before.store.raw? reference.path = session.store.raw? reference.path :=
        (Prod.mk.inj same).1
      rw [served.raw, claimed.store, Store.knows_of_entry _ same, raw]
      cases session.store.knows reference.path <;> simp
    next =>
      have kept := left.raw path
      have raw : after.store.raw? path = middle.store.raw? path :=
        (Prod.mk.inj (served.elsewhere path here)).1
      rw [raw, claimed.store, kept]
      simp [here]
  case elsewhere =>
    intro path other
    simp only [List.map_append, List.map_cons, List.map_nil, List.mem_append, List.mem_singleton,
      not_or] at other
    rw [served.elsewhere path other.2, claimed.store, left.elsewhere path other.1]
  case reads =>
    rw [served.reads, claimed.reads, left.reads, claimed.store, Store.knows_of_entry _ same]
    by_cases known : session.store.knows reference.path <;> simp [known]

theorem Leaves.blockFrom_eq (left : session.Leaves reader document done before)
    (claimed : Claimed document reference before middle) :
    middle.blockFrom reader reference.path = session.blockFrom reader reference.path := by
  have fresh := claimed.fresh
  rw [left.paths] at fresh
  apply blockFrom_of_entry (claimed.settings.trans left.settings)
  rw [claimed.store]
  exact left.elsewhere reference.path (not_mem_done fresh)

theorem Leaves.of_declined {next : Session} (left : session.Leaves reader document recorded before)
    (declined : Declined document reference before next failure) :
    session.Leaves reader document recorded next where
  settings := declined.settings.trans left.settings
  usages := by rw [declined.ledger, left.usages]
  raw := by rw [declined.store]; exact left.raw
  elsewhere := by rw [declined.store]; exact left.elsewhere
  reads := declined.reads.trans left.reads

theorem Leaves.of_merge (left : session.Leaves reader document recorded before) (current : Text)
    (reference : Import) (block : Block) :
    session.Leaves reader document recorded (before.merge document current reference block).1 := by
  obtain ⟨journal, reads, same⟩ := merge_fst before document current reference block
  rw [same]
  exact ⟨left.settings, left.usages, left.raw, left.elsewhere, reads.trans left.reads⟩

theorem isFree_of_disjoint
    (fresh : reference.path ∉ (session.usagesAfter document done).map Prod.fst)
    (served : session.blockFrom reader reference.path = .ok block)
    (disjoint : clashes (declaredNames (session.textAfter reader text done))
      (declaredNamesOf block.scripts) = []) :
    session.IsFree reader document text done reference := by
  intro failure obstructed
  cases obstructed with
  | reused recorded =>
    have missing := Ledger.lookup_eq_none_iff.2 fresh
    rw [recorded] at missing
    cases missing
  | unreadable _ unknown failed =>
    rw [blockFrom_of_unknown unknown, failed] at served
    cases served
  | clash _ served' nonempty _ shared =>
    rw [served] at served'
    cases served'
    obtain ⟨name, member⟩ := List.exists_mem_of_ne_nil _ nonempty
    have both := mem_clashes.2 ((shared name).1 member)
    rw [disjoint] at both
    cases both

theorem obstructs_of_clashes
    (fresh : reference.path ∉ (session.usagesAfter document done).map Prod.fst)
    (served : session.blockFrom reader reference.path = .ok block)
    (shared : clashes (declaredNames (session.textAfter reader text done))
      (declaredNamesOf block.scripts) ≠ []) :
    session.Obstructs reader document text done reference (.clash document reference.blockPath
      (clashes (declaredNames (session.textAfter reader text done))
        (declaredNamesOf block.scripts))) :=
  .clash fresh served shared (pairwise_sortedSet _) fun _ => mem_clashes

theorem unknown_of_blockFrom {cause : FileFault}
    (failed : session.blockFrom reader reference.path = .error cause) :
    session.store.knows reference.path = false ∧
      ∃ cause, reader.read reference.path = .error cause := by
  rcases session.store_cases reference.path with
    ⟨block, stored⟩ | ⟨unparsed, raw, stored⟩ | unknown
  next => simp [blockFrom, stored] at failed
  next => simp [blockFrom, unparsed, stored] at failed
  next =>
    rw [blockFrom_of_unknown unknown] at failed
    cases answer : reader.read reference.path with
    | ok raw => simp [answer, Except.map] at failed
    | error cause => exact ⟨unknown, cause, rfl⟩

theorem textAfter_append (served : session.blockFrom reader reference.path = .ok block) :
    session.textAfter reader text (done ++ [reference]) =
      graft (session.textAfter reader text done) reference block := by
  simp [textAfter, served]

-- Applying imports follows the course of the first session, whatever was done before.
theorem applyImports_course (text : Text) (left : session.Leaves reader document done before)
    (rest : List Import) :
    let outcome := before.applyImports reader document (session.textAfter reader text done) rest
    ∃ recorded, session.Course reader document text done rest outcome.2 recorded ∧
      session.Leaves reader document recorded outcome.1 := by
  -- `left` is the invariant: it says of the session under way what the first session says.
  induction rest generalizing done before with
  | nil => exact ⟨done, .finished, left⟩
  | cons reference rest ih =>
    unfold applyImports
    cases recorded : (session.usagesAfter document done).lookup reference.path with
    | some earlier =>
      have refused := recorded
      rw [← left.get?_eq] at refused
      obtain ⟨next, claimed⟩ := claimImport_of_recorded document refused
      have kept := left.of_declined (declined_of_claimImport claimed)
      rw [left.usages] at claimed
      rw [claimed]
      exact ⟨done, .stopped (.reused recorded), kept⟩
    | none =>
      -- A path that is new to the ledger was not imported before, so its block is as it was.
      have fresh := Ledger.lookup_eq_none_iff.1 recorded
      rw [← left.get?_eq] at recorded
      obtain ⟨middle, passed⟩ := exists_claimImport document recorded
      have claimed := claimed_of_claimImport passed
      rw [passed]
      dsimp only
      have result := getBlock_result reader middle reference.path reference.blockPath
      have served := served_getBlock reader middle reference.path reference.blockPath
      have next := left.append claimed served
      rw [left.blockFrom_eq claimed] at result
      cases taken : middle.getBlock reader reference.path reference.blockPath with
      | mk after answer =>
      rw [taken] at result next
      cases block : session.blockFrom reader reference.path with
      | error cause =>
        rw [block] at result
        subst result
        obtain ⟨unknown, _, failed⟩ := unknown_of_blockFrom block
        exact ⟨_, .stopped (.unreadable fresh unknown failed), next⟩
      | ok block' =>
        rw [block] at result
        subst result
        dsimp only
        have woven := merge_snd after document (session.textAfter reader text done) reference block'
        have merged := next.of_merge (session.textAfter reader text done) reference block'
        cases outcome :
            after.merge document (session.textAfter reader text done) reference block' with
        | mk final answer =>
        rw [outcome] at woven merged
        by_cases disjoint : clashes (declaredNames (session.textAfter reader text done))
            (declaredNamesOf block'.scripts) = []
        next =>
          rw [weave_of_disjoint disjoint, ← textAfter_append block] at woven
          cases woven
          have free := isFree_of_disjoint fresh block disjoint
          obtain ⟨recorded, course, leaves⟩ := ih merged
          exact ⟨recorded, .merged free course, leaves⟩
        next =>
          rw [weave_of_clashes disjoint] at woven
          cases woven
          exact ⟨_, .stopped (obstructs_of_clashes fresh block disjoint), merged⟩

theorem Obstructs.unique {other : Failure}
    (first : session.Obstructs reader document text done reference failure)
    (second : session.Obstructs reader document text done reference other) : failure = other := by
  have absent {earlier : Usage}
      (recorded : (session.usagesAfter document done).lookup reference.path = some earlier)
      (fresh : reference.path ∉ (session.usagesAfter document done).map Prod.fst) : False := by
    rw [Ledger.lookup_eq_none_iff.2 fresh] at recorded
    cases recorded
  have served_unknown {block : Block} {cause : FileFault}
      (served : session.blockFrom reader reference.path = .ok block)
      (unknown : session.store.knows reference.path = false)
      (failed : reader.read reference.path = .error cause) : False := by
    rw [blockFrom_of_unknown unknown, failed] at served
    cases served
  -- Each kind rules the later ones out, so the two obstructions are of one kind.
  cases first with
  | reused recorded =>
    cases second with
    | reused recorded' =>
      rw [recorded] at recorded'
      cases recorded'
      rfl
    | unreadable fresh => exact (absent recorded fresh).elim
    | clash fresh => exact (absent recorded fresh).elim
  | unreadable fresh unknown failed =>
    cases second with
    | reused recorded => exact (absent recorded fresh).elim
    | unreadable => rfl
    | clash _ served => exact (served_unknown served unknown failed).elim
  | clash fresh served _ increasing shared =>
    cases second with
    | reused recorded => exact (absent recorded fresh).elim
    | unreadable _ unknown failed => exact (served_unknown served unknown failed).elim
    | clash _ served' _ increasing' shared' =>
      rw [served] at served'
      cases served'
      have same := increasing.eq_of_mem_iff increasing'
        fun name => (shared name).trans (shared' name).symm
      rw [same]

theorem Course.ending {references : List Import} {result : Except Failure Text}
    (course : session.Course reader document text done rest result recorded)
    (whole : done ++ rest = references)
    (passed : ∀ i < done.length, session.FreeAt reader document text references i) :
    ((∀ k, session.FreeAt reader document text references k) ∧
      result = .ok (session.textAfter reader text references) ∧ recorded = references) ∨
    ∃ k failure, session.StopsAt reader document text references k failure ∧
      result = .error failure ∧
      recorded = references.take (if failure.isReuse then k else k + 1) := by
  subst whole
  induction course with
  | @finished done =>
    left
    rw [List.append_nil] at passed ⊢
    refine ⟨?_, rfl, rfl⟩
    intro k reference found
    exact passed k (List.getElem?_eq_some_iff.1 found).1 reference found
  | @stopped done rest reference failure obstructed =>
    right
    refine ⟨done.length, failure, ⟨passed, reference, by simp, by simpa using obstructed⟩, rfl, ?_⟩
    cases failure.isReuse
    next => simp [List.take_append, List.take_of_length_le]
    next => simp
  | @merged done rest recorded reference result free later ih =>
    have whole : done ++ reference :: rest = (done ++ [reference]) ++ rest := by simp
    rw [whole] at passed ⊢
    apply ih
    intro i bound
    rcases Nat.lt_or_eq_of_le (Nat.le_of_lt_succ (by simpa using bound)) with earlier | rfl
    next => exact passed i earlier
    next =>
      intro other found
      have same : reference = other := by simpa using found
      subst same
      simpa using free

theorem StopsAt.not_free {references : List Import} {k : Nat}
    (stops : session.StopsAt reader document text references k failure) :
    ¬ session.FreeAt reader document text references k := by
  intro free
  obtain ⟨reference, found, obstructed⟩ := stops.obstructed
  exact free reference found failure obstructed

theorem StopsAt.unique {references : List Import} {k l : Nat} {other : Failure}
    (first : session.StopsAt reader document text references k failure)
    (second : session.StopsAt reader document text references l other) :
    k = l ∧ failure = other := by
  have same : k = l := by
    rcases Nat.lt_trichotomy k l with before | same | behind
    next => exact absurd (second.free k before) first.not_free
    next => exact same
    next => exact absurd (first.free l behind) second.not_free
  subst same
  obtain ⟨reference, found, obstructed⟩ := first.obstructed
  obtain ⟨again, found', obstructed'⟩ := second.obstructed
  rw [found] at found'
  cases found'
  exact ⟨rfl, obstructed.unique obstructed'⟩

theorem Leaves.outside (left : session.Leaves reader document recorded after) {path : Text}
    (foreign : path ∉ recorded.map (·.path)) :
    after.ledger.get? path = session.ledger.get? path ∧
    after.store.entry path = session.store.entry path ∧
    after.reads.count path = session.reads.count path := by
  refine ⟨?_, left.elsewhere path foreign, ?_⟩
  next =>
    have unrecorded : (recorded.map (Import.record document)).lookup path = none := by
      rw [Ledger.lookup_eq_none_iff]
      simpa [Import.record, Function.comp_def] using foreign
    rw [left.get?_eq, usagesAfter, List.lookup_append, unrecorded, Option.or_none]
    rfl
  next =>
    have unasked : path ∉ (recorded.map (·.path)).filter fun path =>
        !session.store.knows path := by
      intro asked
      exact foreign (List.mem_filter.1 asked).1
    rw [left.reads, List.count_append, List.count_eq_zero_of_not_mem unasked, Nat.add_zero]

theorem transform_ending (reader : Reader) (session : Session) (document text : Text)
    {references : List Import}
    (scanned : Import.scan session.settings.blockSuffix document text = references)
    (imports : references ≠ []) :
    let outcome := session.transform reader document text
    ∃ recorded, session.Leaves reader document recorded outcome.1 ∧
      (((∀ k, session.FreeAt reader document text references k) ∧
        outcome.2 = .ok (some (session.textAfter reader text references)) ∧
        recorded = references) ∨
      ∃ k failure, session.StopsAt reader document text references k failure ∧
        outcome.2 = .error failure ∧
        recorded = references.take (if failure.isReuse then k else k + 1)) := by
  obtain ⟨recorded, course, left⟩ := applyImports_course text
    (leaves_nil reader session document) references
  rw [transform_eq session reader scanned imports]
  refine ⟨recorded, left, ?_⟩
  rcases course.ending rfl (by simp) with ⟨free, result, whole⟩ | ⟨k, failure, stops, result, part⟩
  next =>
    rw [textAfter, List.foldl_nil] at result
    exact .inl ⟨free, by simp [result, Except.map], whole⟩
  next =>
    rw [textAfter, List.foldl_nil] at result
    exact .inr ⟨k, failure, stops, by simp [result, Except.map], part⟩

/-- The outcome of a transform and the state that it leaves behind, from the session before it. -/
theorem transform_outcome (reader : Reader) (session : Session) (document text : Text)
    {references : List Import}
    (scanned : Import.scan session.settings.blockSuffix document text = references)
    (imports : references ≠ []) :
    let outcome := session.transform reader document text
    ((∃ result, outcome.2 = .ok result) ↔
      ∀ k, session.FreeAt reader document text references k) ∧
    ((∀ k, session.FreeAt reader document text references k) →
      outcome.2 = .ok (some (session.textAfter reader text references)) ∧
      session.Leaves reader document references outcome.1) ∧
    (∀ k failure, session.StopsAt reader document text references k failure →
      outcome.2 = .error failure ∧ session.Leaves reader document
        (references.take (if failure.isReuse then k else k + 1)) outcome.1) ∧
    ∀ path, path ∉ references.map (·.path) →
      outcome.1.ledger.get? path = session.ledger.get? path ∧
      outcome.1.store.entry path = session.store.entry path ∧
      outcome.1.reads.count path = session.reads.count path := by
  obtain ⟨recorded, left, ending⟩ := transform_ending reader session document text scanned imports
  dsimp only
  rcases ending with ⟨free, result, rfl⟩ | ⟨k, failure, stops, result, rfl⟩
  next =>
    rw [result]
    refine ⟨by simpa using free, fun _ => ⟨rfl, left⟩, ?_, fun path foreign => left.outside foreign⟩
    intro k failure stops
    exact absurd (free k) stops.not_free
  next =>
    rw [result]
    refine ⟨?_, ?_, ?_, ?_⟩
    next =>
      constructor
      next => rintro ⟨_, none⟩; cases none
      next => intro free; exact absurd (free k) stops.not_free
    next => intro free; exact absurd (free k) stops.not_free
    next =>
      intro l other stops'
      obtain ⟨rfl, rfl⟩ := stops.unique stops'
      exact ⟨rfl, left⟩
    next =>
      intro path foreign
      apply left.outside
      intro member
      obtain ⟨reference, early, rfl⟩ := List.mem_map.1 member
      exact foreign (List.mem_map_of_mem (List.mem_of_mem_take early))

theorem transform_outcome_of_second_use :
    let path : Text := "/src/a.svelte.xblock"
    let document : Text := "/src/App.svelte"
    let session : Session :=
      { store := (({} : Store).putRaw path "<p/>").putBlock path ⟨[], [], "<p/>"⟩ }
    let text : Text := "import A from \"./a.svelte.xblock\";import B from \"./a.svelte.xblock\";"
    let first : Import := ⟨"import A from \"./a.svelte.xblock\";", ['A'], "./a.svelte.xblock", path⟩
    let second : Import :=
      ⟨"import B from \"./a.svelte.xblock\";", ['B'], "./a.svelte.xblock", path⟩
    let reader : Reader := { read := fun path => .error (.missing path) }
    let failure := Failure.reused second.blockPath ⟨document, ['B']⟩ ⟨document, ['A']⟩
      [(path, ⟨document, ['A']⟩)]
    let outcome := session.transform reader document text
    Import.scan session.settings.blockSuffix document text = [first, second] ∧
      outcome.2 = .error failure ∧ outcome.1.ledger.entries = [(path, ⟨document, ['A']⟩)] := by
  intro path document session text first second reader failure outcome
  have scanned : Import.scan session.settings.blockSuffix document text = [first, second] := by
    decide +kernel
  have served : session.blockFrom reader path = .ok ⟨[], [], "<p/>"⟩ := rfl
  have free : session.IsFree reader document text [] first :=
    isFree_of_disjoint (by decide +kernel) served (by decide +kernel)
  have stops : session.StopsAt reader document text [first, second] 1 failure := by
    constructor
    case free =>
      intro i bound reference found
      obtain rfl : i = 0 := by omega
      cases found
      exact free
    case obstructed =>
      exact ⟨second, rfl, .reused (by decide +kernel)⟩
  obtain ⟨_, _, stopped, _⟩ := transform_outcome reader session document text scanned (by simp)
  obtain ⟨result, left⟩ := stopped 1 failure stops
  exact ⟨scanned, result, left.usages.trans (by decide +kernel)⟩

end Session
end Inlay
