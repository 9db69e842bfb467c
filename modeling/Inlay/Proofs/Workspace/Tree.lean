import Inlay.Proofs.Workspace.Place
import Mathlib.Data.List.Induction

set_option autoImplicit false

namespace Inlay.Workspace

open Text

variable {workspace other : Workspace} {place next final : Place} {entry : Entry} {bytes : Bytes}
variable {shown path component : Text} {components front rest : List Text}

structure IsName (name : Text) : Prop extends IsPlain name where
  legible : Char.ofNat 0 ∉ name
  short : (Utf8.encode name).length ≤ nameLimit

instance (name : Text) : Decidable (IsName name) :=
  decidable_of_iff ((isPlainComponent name = true ∧ '/' ∉ name) ∧ Char.ofNat 0 ∉ name ∧
      (Utf8.encode name).length ≤ nameLimit)
    ⟨fun ⟨⟨plain, whole⟩, legible, short⟩ => ⟨⟨plain, whole⟩, legible, short⟩,
      fun name => ⟨⟨name.plain, name.whole⟩, name.legible, name.short⟩⟩

structure IsTree (workspace : Workspace) : Prop where
  nested : ∀ place entry, workspace.get? place = some entry →
    workspace.get? place.dropLast = some .directory
  named : ∀ place entry, workspace.get? place = some entry → ∀ name ∈ place, IsName name
  distinct : (workspace.entries.map Prod.fst).Nodup

structure Steps (workspace : Workspace) (place : Place) (component : Text) (next : Place) :
    Prop where
  directory : workspace.get? place = some .directory
  short : component ≠ ['.', '.'] → (Utf8.encode component).length ≤ nameLimit
  next : next = if component = ['.', '.'] then place.dropLast else place ++ [component]

inductive Leads (workspace : Workspace) : Place → List Text → Place → Prop
  | nil (place : Place) : Leads workspace place [] place
  | cons {place next final : Place} {component : Text} {components : List Text}
      (step : workspace.Steps place component next)
      (onward : Leads workspace next components final) :
      Leads workspace place (component :: components) final

theorem enter_eq_ok_iff :
    workspace.enter shown place component = .ok next ↔ workspace.Steps place component next := by
  constructor
  next =>
    intro entered
    unfold enter at entered
    split at entered
    next => cases entered
    next => cases entered
    next directory =>
      split at entered
      next up =>
        cases entered
        exact ⟨directory, fun down => absurd up down, by rw [if_pos up]⟩
      next down =>
        split at entered
        next => cases entered
        next short =>
          cases entered
          exact ⟨directory, fun _ => Nat.le_of_not_lt short, by rw [if_neg down]⟩
  next =>
    rintro ⟨directory, short, rfl⟩
    by_cases up : component = ['.', '.']
    next => simp [enter, directory, up]
    next => simp [enter, directory, up, short up]

theorem foldlM_enter_eq_ok_iff :
    components.foldlM (workspace.enter shown) place = .ok final ↔
      workspace.Leads place components final := by
  induction components generalizing place with
  | nil =>
    constructor
    next =>
      intro same
      cases same
      exact .nil _
    next =>
      intro leads
      cases leads
      rfl
  | cons component components ih =>
    rw [List.foldlM_cons]
    constructor
    next =>
      intro followed
      cases entered : workspace.enter shown place component with
      | error fault =>
        rw [entered] at followed
        cases followed
      | ok next =>
        rw [entered] at followed
        exact .cons (enter_eq_ok_iff.1 entered) (ih.1 followed)
    next =>
      rintro ⟨⟩
      next next step onward =>
        rw [enter_eq_ok_iff.2 step]
        exact ih.2 onward

theorem Leads.append_iff : workspace.Leads place (front ++ rest) final ↔
    ∃ middle, workspace.Leads place front middle ∧ workspace.Leads middle rest final := by
  induction front generalizing place with
  | nil =>
    constructor
    next => exact fun leads => ⟨place, .nil place, leads⟩
    next =>
      rintro ⟨middle, ⟨⟩, leads⟩
      exact leads
  | cons component front ih =>
    constructor
    next =>
      rintro ⟨⟩
      next next step onward =>
        obtain ⟨middle, here, there⟩ := ih.1 onward
        exact ⟨middle, .cons step here, there⟩
    next =>
      rintro ⟨middle, ⟨⟩, there⟩
      next next step here => exact .cons step (ih.2 ⟨middle, here, there⟩)

theorem Leads.mono (leads : workspace.Leads place components final)
    (kept : ∀ place, workspace.get? place = some .directory →
      other.get? place = some .directory) : other.Leads place components final := by
  induction leads with
  | nil place => exact .nil place
  | cons step _ ih => exact .cons ⟨kept _ step.directory, step.short, step.next⟩ ih

theorem Leads.eq_foldl (leads : workspace.Leads place components final)
    (proper : ∀ component ∈ components, component ≠ [] ∧ component ≠ ['.']) :
    final = components.foldl Path.enter place := by
  induction leads with
  | nil place => rfl
  | @cons place next final component components step _ ih =>
    obtain ⟨some_text, no_dot⟩ := proper component List.mem_cons_self
    have entered : next = Path.enter place component := by
      simp [step.next, Path.enter, some_text, no_dot]
    rw [List.foldl_cons, ← entered]
    exact ih fun other member => proper other (List.mem_cons_of_mem _ member)

theorem Leads.eq_placeOf (leads : workspace.Leads [] (componentsOf path) place) :
    place = placeOf path := by
  rw [placeOf_eq]
  exact leads.eq_foldl fun component member =>
    ⟨(ne_of_mem_componentsOf member).1, (ne_of_mem_componentsOf member).2.1⟩

-- A path that goes up, if it does, through directories that are there.
def Straight (workspace : Workspace) (path : Text) : Prop :=
  ∃ front rest place, componentsOf path = front ++ rest ∧ workspace.Leads [] front place ∧
    ∀ component ∈ rest, IsPlain component

theorem locate_eq_ok_iff : workspace.locate shown path = .ok place ↔
    Char.ofNat 0 ∉ path ∧ (Utf8.encode shown).length < pathLimit ∧
      workspace.Leads [] (componentsOf path) place := by
  unfold locate
  rw [← @foldlM_enter_eq_ok_iff _ _ _ shown]
  by_cases null : Char.ofNat 0 ∈ path
  next => simp [null]
  next =>
    by_cases long : pathLimit ≤ (Utf8.encode shown).length
    next => simp [null, long, Nat.not_lt.2 long]
    next => simp [null, long, Nat.lt_of_not_le long]

theorem placeOf_of_locate (located : workspace.locate shown path = .ok place) :
    place = placeOf path :=
  (locate_eq_ok_iff.1 located).2.2.eq_placeOf

theorem read_eq_ok_iff : workspace.read shown path = .ok bytes ↔
    ∃ place, workspace.locate shown path = .ok place ∧
      workspace.get? place = some (.file bytes) := by
  unfold read entryAt
  cases located : workspace.locate shown path with
  | error fault => simp [Bind.bind, Except.bind]
  | ok place =>
    cases found : workspace.get? place with
    | none => simp [Bind.bind, Except.bind, found]
    | some entry => cases entry <;> simp [Bind.bind, Except.bind, found, pure, Except.pure]

section Fault

variable {fault : FileFault}

theorem isSystem_of_enter (failed : workspace.enter shown place component = .error fault) :
    fault.isSystem = true := by
  unfold enter at failed
  split at failed
  next => cases failed; rfl
  next => cases failed; rfl
  next =>
    split at failed
    next => cases failed
    next =>
      split at failed
      next => cases failed; rfl
      next => cases failed

theorem isSystem_of_foldlM (failed : components.foldlM (workspace.enter shown) place = .error fault) :
    fault.isSystem = true := by
  induction components generalizing place with
  | nil => cases failed
  | cons component components ih =>
    rw [List.foldlM_cons] at failed
    cases entered : workspace.enter shown place component with
    | error cause =>
      rw [entered] at failed
      cases failed
      exact isSystem_of_enter entered
    | ok next =>
      rw [entered] at failed
      exact ih failed

end Fault

namespace IsTree

variable (tree : workspace.IsTree)

include tree

theorem directory_of_append (found : workspace.get? (place ++ components) = some entry)
    (below : components ≠ []) : workspace.get? place = some .directory := by
  induction components using List.reverseRecOn generalizing entry with
  | nil => exact absurd rfl below
  | append_singleton components component ih =>
    have around := tree.nested _ _ found
    rw [← List.append_assoc, List.dropLast_concat] at around
    by_cases direct : components = []
    next => simpa [direct] using around
    next => exact ih around direct

-- In a tree a path without `..` reaches all that is there.
theorem leads (found : workspace.get? (place ++ components) = some entry) :
    workspace.Leads place components (place ++ components) := by
  induction components generalizing place with
  | nil => simpa using Leads.nil place
  | cons component components ih =>
    have name := tree.named _ _ found component (by simp)
    have around := tree.directory_of_append found (by simp)
    rw [List.append_cons] at found ⊢
    exact .cons ⟨around, fun _ => name.short, by rw [if_neg name.ne_dots]⟩ (ih found)

end IsTree

theorem get?_ne_nil (some_place : place ≠ []) :
    workspace.get? place = workspace.entries.lookup place := by
  simp [get?, some_place]

theorem isTree_of_entries {workspace : Workspace}
    (nested : ∀ known ∈ workspace.entries, workspace.get? known.1.dropLast = some .directory ∧
      ∀ name ∈ known.1, IsName name)
    (distinct : (workspace.entries.map Prod.fst).Nodup) : workspace.IsTree := by
  have listed (place : Place) (entry : Entry) (found : workspace.get? place = some entry) :
      place = [] ∨ (place, entry) ∈ workspace.entries := by
    by_cases root : place = []
    next => exact .inl root
    next =>
      rw [get?_ne_nil root, List.lookup_eq_some_iff] at found
      obtain ⟨before, after, split, -⟩ := found
      exact .inr (by simp [split])
  refine ⟨?_, ?_, distinct⟩
  next =>
    intro place entry found
    rcases listed place entry found with rfl | member
    next => rfl
    next => exact (nested _ member).1
  next =>
    intro place entry found
    rcases listed place entry found with rfl | member
    next => simp
    next => exact (nested _ member).2

theorem IsTree.mem_entries_iff (tree : workspace.IsTree) (some_place : place ≠ []) :
    (place, entry) ∈ workspace.entries ↔ workspace.get? place = some entry := by
  rw [get?_ne_nil some_place]
  have distinct := tree.distinct
  generalize workspace.entries = entries at distinct
  induction entries with
  | nil => simp
  | cons known entries ih =>
    obtain ⟨name, value⟩ := known
    simp only [List.map_cons, List.nodup_cons, List.mem_map, Prod.exists, exists_and_right,
      exists_eq_right, not_exists] at distinct
    rw [List.mem_cons, Prod.mk.injEq, List.lookup_cons]
    by_cases here : place = name
    next =>
      subst here
      simp [distinct.1, eq_comm]
    next =>
      have apart : (place == name) = false := by simpa using here
      simp [here, apart, ih distinct.2]

theorem IsTree.mem_filesBelow (tree : workspace.IsTree) :
    components ∈ workspace.filesBelow place ↔
      components ≠ [] ∧ ∃ bytes, workspace.get? (place ++ components) = some (.file bytes) := by
  unfold filesBelow
  rw [List.mem_filterMap]
  constructor
  next =>
    rintro ⟨⟨known, entry⟩, member, taken⟩
    cases entry with
    | directory => cases taken
    | file bytes =>
      simp only [Option.ite_none_right_eq_some, Bool.and_eq_true, List.isPrefixOf_iff_prefix,
        bne_iff_ne, ne_eq, Option.some.injEq] at taken
      obtain ⟨⟨⟨below, rfl⟩, apart⟩, rfl⟩ := taken
      rw [List.drop_left]
      have nonempty : below ≠ [] := by
        rintro rfl
        exact apart (by simp)
      exact ⟨nonempty, bytes, (tree.mem_entries_iff (by simp [nonempty])).1 member⟩
  next =>
    rintro ⟨nonempty, bytes, found⟩
    have listed := (tree.mem_entries_iff (by simp [nonempty])).2 found
    refine ⟨(place ++ components, .file bytes), listed, ?_⟩
    simp [nonempty, List.isPrefixOf_iff_prefix]

theorem IsTree.nodup_filesBelow (tree : workspace.IsTree) (place : Place) :
    (workspace.filesBelow place).Nodup := by
  have taken : ((workspace.filesBelow place).map (place ++ ·)).Sublist
      (workspace.entries.map Prod.fst) := by
    unfold filesBelow
    induction workspace.entries with
    | nil => simp
    | cons known entries ih =>
      obtain ⟨known, entry⟩ := known
      rw [List.filterMap_cons, List.map_cons]
      cases entry with
      | directory => exact ih.cons known
      | file bytes =>
        dsimp only
        split
        next => exact ih.cons known
        next below kept =>
          simp only [Option.ite_none_right_eq_some, Bool.and_eq_true, List.isPrefixOf_iff_prefix,
            Option.some.injEq] at kept
          obtain ⟨⟨⟨below, rfl⟩, -⟩, rfl⟩ := kept
          rw [List.drop_left, List.map_cons]
          exact ih.cons_cons _
  exact List.Pairwise.of_map _ (fun _ _ apart same => apart (same ▸ rfl)) (tree.distinct.sublist taken)

end Inlay.Workspace
