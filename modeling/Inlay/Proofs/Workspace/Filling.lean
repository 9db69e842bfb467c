import Inlay.Proofs.Workspace.Directories

set_option autoImplicit false

namespace Inlay.Workspace

open Text

variable {workspace before middle after : Workspace} {place : Place} {bytes : Bytes}
variable {path : Text} {coding : Coding} {written more : List (Text × Text)} {way : List Text}

theorem get?_of_read (read : workspace.read path path = .ok bytes) :
    workspace.get? (placeOf path) = some (.file bytes) := by
  obtain ⟨place, located, found⟩ := read_eq_ok_iff.1 read
  rwa [← placeOf_of_locate located]

structure Filled (coding : Coding) (written : List (Text × Text)) (before after : Workspace) :
    Prop where
  tree : after.IsTree
  machine : after.machine = before.machine
  free : ∀ item ∈ written, before.get? (placeOf item.1) ≠ some .directory
  found : ∀ item ∈ written, ∃ bytes, coding.encode item.2 = .ok bytes ∧
    after.read item.1 item.1 = .ok bytes
  kept : ∀ place entry, (∀ item ∈ written, place ≠ placeOf item.1) →
    before.get? place = some entry → after.get? place = some entry
  added : ∀ place entry, (∀ item ∈ written, place ≠ placeOf item.1) →
    before.get? place = none → after.get? place = some entry → entry = .directory

theorem Filled.refl (tree : workspace.IsTree) (coding : Coding) :
    Filled coding [] workspace workspace where
  tree := tree
  machine := rfl
  free := by simp
  found := by simp
  kept := fun _ _ _ found => found
  added := by
    intro place entry _ nothing found
    simp [nothing] at found

theorem Furnished.filled (furnished : Furnished way before after)
    (machine : after.machine = before.machine) (coding : Coding) :
    Filled coding [] before after where
  tree := furnished.tree
  machine := machine
  free := by simp
  found := by simp
  kept := fun place entry _ => furnished.kept place entry
  added := fun place entry _ nothing found => (furnished.added place entry nothing found).1

namespace Filled

variable (done : Filled coding written before after)

include done

theorem file {item : Text × Text} (member : item ∈ written) : ∃ bytes,
    coding.encode item.2 = .ok bytes ∧ after.get? (placeOf item.1) = some (.file bytes) := by
  obtain ⟨bytes, encoded, read⟩ := done.found item member
  exact ⟨bytes, encoded, get?_of_read read⟩

theorem directory (found : before.get? place = some .directory) :
    after.get? place = some .directory := by
  refine done.kept place _ ?_ found
  rintro item member rfl
  exact done.free item member found

theorem get?_file_iff (outside : ∀ item ∈ written, place ≠ placeOf item.1) :
    after.get? place = some (.file bytes) ↔ before.get? place = some (.file bytes) := by
  constructor
  next =>
    intro found
    cases known : before.get? place with
    | none => cases done.added place _ outside known found
    | some entry => exact (done.kept place entry outside known).symm.trans found
  next => exact done.kept place _ outside

theorem read (outside : ∀ item ∈ written, placeOf path ≠ placeOf item.1)
    (read : before.read path path = .ok bytes) : after.read path path = .ok bytes := by
  obtain ⟨place, located, found⟩ := read_eq_ok_iff.1 read
  obtain ⟨legible, short, leads⟩ := locate_eq_ok_iff.1 located
  have here := leads.eq_placeOf
  subst here
  refine read_eq_ok_iff.2 ⟨_, locate_eq_ok_iff.2 ⟨legible, short, ?_⟩, done.kept _ _ outside found⟩
  exact leads.mono fun _ => done.directory

theorem read_iff (tree : before.IsTree) (outside : ∀ item ∈ written, placeOf path ≠ placeOf item.1)
    (straight : before.Straight path) :
    after.read path path = .ok bytes ↔ before.read path path = .ok bytes := by
  refine ⟨fun read => ?_, done.read outside⟩
  obtain ⟨front, rest, place, parts, leads, plain⟩ := straight
  obtain ⟨final, located, found⟩ := read_eq_ok_iff.1 read
  obtain ⟨legible, short, led⟩ := locate_eq_ok_iff.1 located
  have final_place := led.eq_placeOf
  subst final_place
  rw [done.get?_file_iff outside] at found
  have here : placeOf path = place ++ rest := by
    have front_place := leads.eq_foldl fun component member => by
      have among : component ∈ componentsOf path := parts ▸ List.mem_append_left _ member
      have proper := ne_of_mem_componentsOf among
      exact ⟨proper.1, proper.2.1⟩
    rw [placeOf_eq, parts, List.foldl_append, ← front_place, foldl_enter_plain _ plain]
  refine read_eq_ok_iff.2 ⟨_, locate_eq_ok_iff.2 ⟨legible, short, ?_⟩, found⟩
  rw [parts, Leads.append_iff]
  rw [here] at found ⊢
  exact ⟨place, leads, tree.leads found⟩

theorem trans {final : Workspace} (later : Filled coding more after final)
    (new : ∀ item ∈ more, ∀ other ∈ written, placeOf item.1 ≠ placeOf other.1) :
    Filled coding (written ++ more) before final where
  tree := later.tree
  machine := later.machine.trans done.machine
  free := by
    refine List.forall_mem_append.2 ⟨done.free, fun item member taken => ?_⟩
    exact later.free item member (done.directory taken)
  found := by
    refine List.forall_mem_append.2 ⟨fun item member => ?_, later.found⟩
    obtain ⟨bytes, encoded, read⟩ := done.found item member
    exact ⟨bytes, encoded, later.read (fun other among => (new other among item member).symm) read⟩
  kept := by
    intro place entry apart found
    obtain ⟨first, second⟩ := List.forall_mem_append.1 apart
    exact later.kept place entry second (done.kept place entry first found)
  added := by
    intro place entry apart nothing found
    obtain ⟨first, second⟩ := List.forall_mem_append.1 apart
    cases between : after.get? place with
    | none => exact later.added place entry second between found
    | some made =>
      cases (later.kept place made second between).symm.trans found
      exact done.added place entry first nothing between

end Filled
end Inlay.Workspace
