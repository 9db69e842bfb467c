import Inlay.Proofs.Session.SingleUse

set_option autoImplicit false

namespace Inlay

open Text Markup

namespace Reader

def AgreesAt (reader other : Reader) (path : Text) : Prop :=
  (other.read path).toOption = (reader.read path).toOption

end Reader

def Refused (result : Except Failure (Option Text)) : Prop :=
  ∃ failure, result = .error failure ∧ failure.isReuse = true

namespace Job

def IsRefused (job : Job) : Prop :=
  ∃ result, job = .finished result ∧ Refused result

-- The job without the suspensions of its read that are left.
def unpaused : Job → Job
  | waiting _ current reference references => .waiting 0 current reference references
  | job => job

-- The path that a job waits for.
def awaited? : Job → Option Text
  | waiting _ _ reference _ => some reference.path
  | _ => none

-- The imports that a job still has to read or to claim.
def remaining : Job → List Import
  | ready _ references => references
  | waiting _ _ reference references => reference :: references
  | finished _ => []

end Job

namespace Session

structure Offers (alone shared : Session) : Prop where
  settings : alone.settings = shared.settings
  free : ∀ path, path ∉ shared.ledger.paths → path ∉ alone.ledger.paths
  stored : ∀ path, path ∉ shared.ledger.paths → alone.store.entry path = shared.store.entry path

structure Touches (path : Text) (before after : Session) : Prop where
  kept : before.Keeps after
  elsewhere : ∀ other, other ≠ path → after.store.entry other = before.store.entry other

variable {session alone shared before middle after next : Session}
variable {reader actual : Reader} {document path written current text : Text}
variable {reference : Import} {references : List Import} {block : Block} {failure : Failure}
variable {job : Job}

theorem Offers.refl (session : Session) : session.Offers session :=
  ⟨rfl, fun _ fresh => fresh, fun _ _ => rfl⟩

theorem Offers.trans (early : before.Offers middle) (late : middle.Offers after) :
    before.Offers after where
  settings := early.settings.trans late.settings
  free := fun path fresh => early.free path (late.free path fresh)
  stored := fun path fresh => (early.stored path (late.free path fresh)).trans (late.stored path fresh)

theorem Offers.mem_paths (offers : before.Offers after) (recorded : path ∈ before.ledger.paths) :
    path ∈ after.ledger.paths := by
  by_contra fresh
  exact offers.free path fresh recorded

theorem Touches.refl (path : Text) (session : Session) : Touches path session session :=
  ⟨.refl session, fun _ _ => rfl⟩

theorem Claimed.mem_paths (claimed : Claimed document reference before after) (other : Text) :
    other ∈ after.ledger.paths ↔ other ∈ before.ledger.paths ∨ other = reference.path := by
  simp [Ledger.paths, claimed.entries, Import.record]

theorem Declined.offers (declined : Declined document reference before after failure) :
    before.Offers after where
  settings := declined.settings.symm
  free := fun _ fresh => by rwa [declined.ledger] at fresh
  stored := fun _ _ => by rw [declined.store]

theorem Claimed.offers (claimed : Claimed document reference before after) : before.Offers after where
  settings := claimed.settings.symm
  free := by
    intro other fresh
    rw [claimed.mem_paths, not_or] at fresh
    exact fresh.1
  stored := fun _ _ => by rw [claimed.store]

theorem Offers.claimed {own : Session} (offers : alone.Offers shared)
    (mine : Claimed document reference alone own) (theirs : Claimed document reference shared next) :
    own.Offers next where
  settings := by rw [mine.settings, offers.settings, theirs.settings]
  free := by
    intro other fresh
    rw [theirs.mem_paths, not_or] at fresh
    rw [mine.mem_paths, not_or]
    exact ⟨offers.free other fresh.1, fresh.2⟩
  stored := by
    intro other fresh
    rw [theirs.mem_paths, not_or] at fresh
    rw [mine.store, theirs.store, offers.stored other fresh.1]

-- What is done to a path on record does not concern what can still be claimed.
theorem Offers.touched {own : Session} (offers : alone.Offers shared)
    (recorded : path ∈ shared.ledger.paths) (mine : Touches path alone own)
    (theirs : Touches path shared next) : own.Offers next where
  settings := by rw [mine.kept.settings, offers.settings, theirs.kept.settings]
  free := by
    intro other fresh
    rw [theirs.kept.ledger] at fresh
    rw [mine.kept.ledger]
    exact offers.free other fresh
  stored := by
    intro other fresh
    rw [theirs.kept.ledger] at fresh
    have apart : other ≠ path := by
      rintro rfl
      exact fresh recorded
    rw [mine.elsewhere other apart, theirs.elsewhere other apart, offers.stored other fresh]

theorem Touches.offers (touched : Touches path before after)
    (recorded : path ∈ before.ledger.paths) : before.Offers after :=
  (Offers.refl before).touched recorded (.refl path before) touched

section Operations

variable (session) (path written) (answer : Except FileFault Text)

theorem storedBlock_snd : (session.storedBlock path).2 =
    (session.store.block? path).or
      ((session.store.raw? path).map (Block.parse session.settings.templateTag)) := by
  rcases session.store_cases path with ⟨block, stored⟩ | ⟨unparsed, raw, stored⟩ | unknown
  next => simp [storedBlock_of_parsed stored, stored]
  next => simp [storedBlock_of_raw unparsed stored, unparsed, stored]
  next =>
    obtain ⟨raw, block⟩ := (Store.knows_eq_false_iff ..).1 unknown
    simp [storedBlock_of_unknown unknown, raw, block]

theorem touches_storedBlock : Touches path session (session.storedBlock path).1 where
  kept := keeps_storedBlock rfl
  elsewhere := by
    intro other apart
    rcases session.store_cases path with ⟨block, stored⟩ | ⟨unparsed, raw, stored⟩ | unknown
    next => rw [storedBlock_of_parsed stored]
    next => rw [storedBlock_of_raw unparsed stored]; exact entry_keepBlock apart
    next => rw [storedBlock_of_unknown unknown]; rfl

theorem receiveBlock_snd : (session.receiveBlock path written answer).2 =
    match answer.toOption with
    | some raw => .ok (Block.parse session.settings.templateTag raw)
    | none => .error (.unreadable (shownPath written path) path) := by
  cases answer <;> rfl

theorem touches_receiveBlock :
    Touches path session (session.receiveBlock path written answer).1 where
  kept := keeps_receiveBlock rfl
  elsewhere := fun _ apart => entry_receiveBlock answer apart

end Operations

section Remaining

variable (reader : Reader) (document : Text) (session : Session) (current : Text)

theorem remaining_advance (references : List Import) :
    (session.advance reader document current references).2.remaining ⊆ references := by
  fun_induction advance reader document session current references with
  | case1 => simp [Job.remaining]
  | case2 => simp [Job.remaining]
  | case3 => simp [Job.remaining]
  | case4 => simp_all
  | case5 => simp [Job.remaining]
  | case6 => simp [Job.remaining]
  | case7 => simp [Job.remaining]
  | case8 => simp_all

-- A job only ever turns to imports that were its own.
theorem remaining_turn (job : Job) :
    (session.turn reader document job).2.remaining ⊆ job.remaining := by
  match job with
  | .ready _ [] => simp [turn, Job.remaining]
  | .ready text (reference :: references) => exact remaining_advance ..
  | .waiting (pauses + 1) _ _ _ => exact List.Subset.refl _
  | .waiting 0 current reference references =>
    change (session.resume reader document current reference references).2.remaining ⊆ _
    unfold resume
    split
    next => simp [Job.remaining]
    next =>
      split
      next => simp [Job.remaining]
      next => exact List.Subset.trans (remaining_advance ..) (List.subset_cons_self _ _)
  | .finished _ => exact List.Subset.refl _

end Remaining

structure Prospect where
  answer : Except Failure (Option Text)
  records : List (Text × Usage)

structure Completes (start : Session) (outcome : Session × Job) (prospect : Prospect) : Prop where
  answer : outcome.2 = .finished prospect.answer
  entries : outcome.1.ledger.entries = start.ledger.entries ++ prospect.records

/-- What is still to come of a job if it goes on alone, with what the shared session offers. -/
structure Heads (reader : Reader) (document : Text) (shared : Session) (job : Job)
    (prospect : Prospect) : Prop where
  recorded : ∀ path, job.awaited? = some path → path ∈ shared.ledger.paths
  alone : ∃ alone : Session, alone.Offers shared ∧
    Completes alone (alone.turn reader.still document job.unpaused) prospect

structure Progress (reader : Reader) (document : Text) (shared : Session) (prospect : Prospect)
    (outcome : Session × Job) : Prop where
  offers : shared.Offers outcome.1
  goes : outcome.2.IsRefused ∨ ∃ made later, prospect.records = made ++ later ∧
    outcome.1.ledger.entries = shared.ledger.entries ++ made ∧
    Heads reader document outcome.1 outcome.2 ⟨prospect.answer, later⟩

variable {prospect : Prospect} {outcome : Session × Job}

theorem Heads.mono (heads : Heads reader document shared job prospect)
    (offers : shared.Offers next) : Heads reader document next job prospect := by
  obtain ⟨recorded, alone, early, completes⟩ := heads
  exact ⟨fun path awaited => offers.mem_paths (recorded path awaited), alone, early.trans offers,
    completes⟩

theorem Completes.unique {other : Prospect} (first : Completes session outcome prospect)
    (second : Completes session outcome other) : prospect = other := by
  have answers := first.answer.symm.trans second.answer
  have records := List.append_cancel_left (first.entries.symm.trans second.entries)
  cases prospect
  cases other
  cases answers
  cases records
  rfl

theorem Completes.of_finished {answer : Except Failure (Option Text)} (kept : session.Keeps next) :
    Completes session (next, .finished answer) ⟨answer, []⟩ :=
  ⟨rfl, by rw [kept.ledger, List.append_nil]⟩

theorem Completes.of_keeps (completes : Completes session outcome prospect)
    (kept : session.Keeps next) : Completes next outcome prospect :=
  ⟨completes.answer, by rw [completes.entries, kept.ledger]⟩

-- The first record that is still to come is that of the import whose claim passes.
theorem Completes.of_claimed {own : Session} (completes : Completes alone
      (own.serve reader document current reference references) prospect)
    (claimed : Claimed document reference alone own) :
    ∃ later, prospect.records = reference.record document :: later ∧
      Completes own (own.serve reader document current reference references)
        ⟨prospect.answer, later⟩ := by
  obtain ⟨attempts, worked⟩ :=
    (worked_advance reader document references).serve own current reference
  have entries := worked.traced.entries
  have made := completes.entries
  rw [entries, claimed.entries, List.append_assoc, List.append_cancel_left_eq] at made
  exact ⟨records attempts, made.symm, completes.answer, entries⟩

theorem Progress.after_offers (progress : Progress reader document next prospect outcome)
    (offers : shared.Offers next) (kept : shared.Keeps next) :
    Progress reader document shared prospect outcome := by
  refine ⟨offers.trans progress.offers, progress.goes.imp_right ?_⟩
  rintro ⟨made, later, split, entries, heads⟩
  exact ⟨made, later, split, by rw [entries, kept.ledger], heads⟩

theorem Progress.after_claimed (progress : Progress reader document next prospect outcome)
    (claimed : Claimed document reference shared next) :
    Progress reader document shared
      ⟨prospect.answer, reference.record document :: prospect.records⟩ outcome := by
  refine ⟨claimed.offers.trans progress.offers, progress.goes.imp_right ?_⟩
  rintro ⟨made, later, split, entries, heads⟩
  refine ⟨reference.record document :: made, later, by simp [split], ?_, heads⟩
  rw [entries, claimed.entries]
  simp

theorem Progress.of_finished {answer : Except Failure (Option Text)} (offers : alone.Offers shared) :
    Progress reader document shared ⟨answer, []⟩ (shared, .finished answer) := by
  refine ⟨.refl shared, .inr ⟨[], [], rfl, (List.append_nil _).symm, ?_, alone, offers, ?_⟩⟩
  next => simp [Job.awaited?]
  next => exact ⟨rfl, (List.append_nil _).symm⟩

section Simulation

variable (reader actual document)

-- Whatever block comes next, the two sessions go on side by side.
def Simulates (references : List Import) : Prop :=
  ∀ {alone shared : Session} {current : Text} {prospect : Prospect}, alone.Offers shared →
    Completes alone (alone.advance reader.still document current references) prospect →
    Progress reader document shared prospect (shared.advance actual document current references)

variable {reader actual document}

theorem Offers.merged (offers : alone.Offers shared) (document current : Text)
    (reference : Import) (block : Block) :
    (alone.merge document current reference block).1.Offers
      (shared.merge document current reference block).1 := by
  obtain ⟨_, -, mine⟩ := merge_fst alone document current reference block
  obtain ⟨_, -, theirs⟩ := merge_fst shared document current reference block
  rw [mine, theirs]
  exact ⟨offers.settings, offers.free, offers.stored⟩

theorem offers_merge (shared : Session) (document current : Text) (reference : Import)
    (block : Block) : shared.Offers (shared.merge document current reference block).1 := by
  obtain ⟨_, -, same⟩ := merge_fst shared document current reference block
  rw [same]
  exact ⟨rfl, fun _ fresh => fresh, fun _ _ => rfl⟩

theorem Simulates.proceed (simulates : Simulates reader actual document references)
    (offers : alone.Offers shared)
    (completes : Completes alone
      (alone.proceed reader.still document current reference references block) prospect) :
    Progress reader document shared prospect
      (shared.proceed actual document current reference references block) := by
  unfold Session.proceed at completes ⊢
  have offers' := offers.merged document current reference block
  have onward := offers_merge shared document current reference block
  have mine := merge_snd alone document current reference block
  have theirs := merge_snd shared document current reference block
  cases mine' : alone.merge document current reference block with
  | mk own result =>
  cases theirs' : shared.merge document current reference block with
  | mk next result' =>
  rw [mine'] at completes mine offers'
  rw [theirs'] at theirs offers' onward
  dsimp only at mine theirs completes offers' onward ⊢
  subst mine theirs
  have kept := keeps_merge mine'
  have kept' := keeps_merge theirs'
  cases woven : weave document current reference block with
  | error failure =>
    rw [woven] at completes
    have same := completes.unique (.of_finished kept)
    subst same
    exact (Progress.of_finished offers').after_offers onward kept'
  | ok text =>
    rw [woven] at completes
    exact (simulates offers' (completes.of_keeps kept)).after_offers onward kept'

theorem Simulates.resume (simulates : Simulates reader actual document references)
    (agrees : reader.AgreesAt actual reference.path) (offers : alone.Offers shared)
    (recorded : reference.path ∈ shared.ledger.paths)
    (completes : Completes alone
      (alone.resume reader.still document current reference references) prospect) :
    Progress reader document shared prospect
      (shared.resume actual document current reference references) := by
  rw [resume_eq] at completes ⊢
  have mine := touches_receiveBlock alone reference.path reference.blockPath
    (reader.read reference.path)
  have theirs := touches_receiveBlock shared reference.path reference.blockPath
    (actual.read reference.path)
  have offers' := offers.touched recorded mine theirs
  have onward := theirs.offers recorded
  have answer := receiveBlock_snd alone reference.path reference.blockPath
    (reader.read reference.path)
  have answer' := receiveBlock_snd shared reference.path reference.blockPath
    (actual.read reference.path)
  rw [agrees, ← offers.settings, ← answer] at answer'
  cases mine' : alone.receiveBlock reference.path reference.blockPath
      (reader.read reference.path) with
  | mk own result =>
  cases theirs' : shared.receiveBlock reference.path reference.blockPath
      (actual.read reference.path) with
  | mk next result' =>
  have still : reader.still.read reference.path = reader.read reference.path := rfl
  rw [still, mine'] at completes
  rw [mine'] at mine offers' answer'
  rw [theirs'] at theirs offers' onward answer'
  dsimp only at mine theirs completes offers' onward answer' ⊢
  subst answer'
  cases result' with
  | error failure =>
    have same := completes.unique (.of_finished mine.kept)
    subst same
    exact (Progress.of_finished offers').after_offers onward theirs.kept
  | ok block =>
    have later := simulates.proceed offers' (completes.of_keeps mine.kept)
    exact later.after_offers onward theirs.kept

theorem Simulates.serve (simulates : Simulates reader actual document references)
    (agrees : reader.AgreesAt actual reference.path) (offers : alone.Offers shared)
    (recorded : reference.path ∈ shared.ledger.paths)
    (same : alone.store.entry reference.path = shared.store.entry reference.path)
    (completes : Completes alone
      (alone.serve reader.still document current reference references) prospect) :
    Progress reader document shared prospect
      (shared.serve actual document current reference references) := by
  have found := storedBlock_snd alone reference.path
  have found' := storedBlock_snd shared reference.path
  obtain ⟨raw, parsed⟩ := Prod.mk.inj same
  rw [← offers.settings, ← raw, ← parsed, ← found] at found'
  have mine := touches_storedBlock alone reference.path
  have theirs := touches_storedBlock shared reference.path
  have offers' := offers.touched recorded mine theirs
  have onward := theirs.offers recorded
  unfold Session.serve at completes ⊢
  cases taken : alone.storedBlock reference.path with
  | mk own block? =>
  cases taken' : shared.storedBlock reference.path with
  | mk next block?' =>
  rw [taken] at completes mine offers' found'
  rw [taken'] at theirs offers' onward found'
  dsimp only at completes mine theirs offers' onward found' ⊢
  subst found'
  have ends := completes.of_keeps mine.kept
  cases block?' with
  | some block => exact (simulates.proceed offers' ends).after_offers onward theirs.kept
  | none =>
    have recorded' : reference.path ∈ next.ledger.paths := by
      rw [theirs.kept.ledger]
      exact recorded
    cases actual.pauses reference.path with
    | zero =>
      exact (simulates.resume agrees offers' recorded' ends).after_offers onward theirs.kept
    | succ pauses =>
      refine Progress.after_offers ⟨.refl next, .inr ⟨[], prospect.records, rfl, ?_, ?_⟩⟩ onward
        theirs.kept
      next => exact (List.append_nil _).symm
      next => exact ⟨by simpa [Job.awaited?] using recorded', own, offers', ends⟩

theorem simulates_advance (agrees : ∀ reference ∈ references, reader.AgreesAt actual reference.path) :
    Simulates reader actual document references := by
  induction references with
  | nil =>
    intro alone shared current prospect offers completes
    have same := completes.unique (.of_finished (.refl alone))
    subst same
    exact .of_finished offers
  | cons reference references ih =>
    intro alone shared current prospect offers completes
    have later : Simulates reader actual document references :=
      ih fun other member => agrees other (by simp [member])
    cases recorded : shared.ledger.get? reference.path with
    | some earlier =>
      obtain ⟨next, claimed⟩ := claimImport_of_recorded document recorded
      rw [advance_cons, claimed]
      exact ⟨(declined_of_claimImport claimed).offers, .inl ⟨_, rfl, _, rfl, rfl⟩⟩
    | none =>
      -- A path that is new to the shared session is new to the other one, with the same block.
      have fresh := Ledger.get?_eq_none_iff.1 recorded
      obtain ⟨next, passed⟩ := exists_claimImport document recorded
      have missing := Ledger.get?_eq_none_iff.2 (offers.free _ fresh)
      obtain ⟨own, passed'⟩ := exists_claimImport document missing
      have mine := claimed_of_claimImport passed'
      have theirs := claimed_of_claimImport passed
      have same : own.store.entry reference.path = next.store.entry reference.path := by
        rw [mine.store, theirs.store, offers.stored _ fresh]
      rw [advance_cons, passed'] at completes
      obtain ⟨records, split, ends⟩ := completes.of_claimed mine
      have served := later.serve (agrees reference (by simp)) (offers.claimed mine theirs)
        ((theirs.mem_paths _).2 (.inr rfl)) same ends
      have whole := served.after_claimed theirs
      rw [← split] at whole
      rw [advance_cons, passed]
      exact whole

theorem Heads.turn (heads : Heads reader document shared job prospect)
    (agrees : ∀ reference ∈ job.remaining, reader.AgreesAt actual reference.path) :
    Progress reader document shared prospect (shared.turn actual document job) := by
  obtain ⟨recorded, alone, offers, completes⟩ := heads
  match job with
  | .ready text [] =>
    have same := completes.unique (.of_finished ⟨rfl, rfl, rfl⟩)
    subst same
    have noted : shared.Offers (shared.note (.untouched document)) :=
      ⟨rfl, fun _ fresh => fresh, fun _ _ => rfl⟩
    exact (Progress.of_finished (offers.trans noted)).after_offers noted ⟨rfl, rfl, rfl⟩
  | .ready text (reference :: references) => exact simulates_advance agrees offers completes
  | .waiting (pauses + 1) current reference references =>
    exact ⟨.refl shared, .inr ⟨[], _, rfl, (List.append_nil _).symm, recorded, alone, offers,
      completes⟩⟩
  | .waiting 0 current reference references =>
    have later : Simulates reader actual document references :=
      simulates_advance fun other member => agrees other (List.mem_cons_of_mem _ member)
    exact later.resume (agrees reference List.mem_cons_self) offers (recorded _ rfl) completes
  | .finished answer =>
    have same := completes.unique (.of_finished (.refl alone))
    subst same
    exact .of_finished offers

theorem Heads.of_finished {answer : Except Failure (Option Text)}
    (heads : Heads reader document shared (.finished answer) prospect) :
    prospect = ⟨answer, []⟩ := by
  obtain ⟨-, alone, -, completes⟩ := heads
  exact completes.unique (.of_finished (.refl alone))

end Simulation

def prospectOf (reader : Reader) (session : Session) (document text : Text) : Prospect where
  answer := (session.transform reader document text).2
  records := records (session.transformAttempts reader document text)

theorem heads_ready (offers : alone.Offers shared) (reader : Reader) (document text : Text) :
    Heads reader document shared
      (.ready text (Import.scan alone.settings.blockSuffix document text))
      (alone.prospectOf reader document text) := by
  refine ⟨by simp [Job.awaited?], alone, offers, ?_⟩
  dsimp only [Job.unpaused]
  rw [turn_still_ready]
  exact ⟨rfl, (worked_transform reader alone document text).traced.entries⟩
end Session
end Inlay
