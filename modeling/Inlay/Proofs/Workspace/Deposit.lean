import Inlay.Proofs.Workspace.Filling

set_option autoImplicit false

namespace Inlay.Workspace

open Text

variable {workspace before middle after : Workspace} {place : Place} {entry : Entry} {bytes : Bytes}
variable {encoding path target text : Text} {coding : Coding} {written : List (Text × Text)}

def deposit (workspace : Workspace) (encoding target text : Text) : Except FileFault Workspace :=
  match workspace.makeDirectories (Path.directory target) with
  | .error fault => .error fault
  | .ok made =>
    match made.writeText encoding target text with
    | (_, .error fault) => .error fault
    | (written, .ok ()) => .ok written

def depositAll (encoding : Text) (workspace : Workspace) (texts : List (Text × Text)) :
    Except FileFault Workspace :=
  texts.foldlM (fun workspace (target, text) => workspace.deposit encoding target text) workspace

-- Writing needs a directory to write into, and no directory in the file's place.
theorem IsTree.write_eq_ok_iff (tree : workspace.IsTree) :
    workspace.write path bytes = .ok after ↔
      ∃ place, workspace.locate path path = .ok place ∧
        workspace.get? place ≠ some .directory ∧
        workspace.get? place.dropLast = some .directory ∧
        after = workspace.put place (.file bytes) := by
  unfold Workspace.write
  cases workspace.locate path path with
  | error fault => simp [Bind.bind, Except.bind]
  | ok place =>
    cases found : workspace.get? place with
    | none =>
      cases around : workspace.get? place.dropLast with
      | none => simp [Bind.bind, Except.bind, found, around]
      | some entry =>
        cases entry <;>
          simp [Bind.bind, Except.bind, found, around, pure, Except.pure, eq_comm]
    | some entry =>
      have around := tree.nested place entry found
      cases entry <;> simp [Bind.bind, Except.bind, found, around, pure, Except.pure, eq_comm]

theorem writeText_eq_ok_iff :
    workspace.writeText encoding path text = (after, .ok ()) ↔
      (∃ emptied, workspace.write path [] = .ok emptied) ∧
      ∃ coding bytes, workspace.coding encoding = .ok coding ∧ coding.encode text = .ok bytes ∧
        workspace.write path bytes = .ok after := by
  unfold writeText
  cases workspace.write path [] with
  | error fault => simp
  | ok emptied =>
    cases known : workspace.coding encoding with
    | error fault => simp
    | ok coding =>
      cases encoded : coding.encode text with
      | error cause => simp [encoded]
      | ok bytes => cases written : workspace.write path bytes <;> simp [encoded, written]

theorem machine_of_deposit (done : workspace.deposit encoding path text = .ok after) :
    after.machine = workspace.machine := by
  unfold deposit at done
  split at done
  next => cases done
  next made directories =>
    have kept := machine_writeText made encoding path text
    split at done
    next => cases done
    next wrote =>
      cases done
      rw [wrote] at kept
      exact kept.trans (machine_of_makeDirectories directories)

theorem machine_of_depositAll (done : depositAll encoding workspace written = .ok after) :
    after.machine = workspace.machine := by
  induction written generalizing workspace with
  | nil => cases done; rfl
  | cons item written ih =>
    unfold depositAll at done ih
    rw [List.foldlM_cons] at done
    cases first : workspace.deposit encoding item.1 item.2 with
    | error fault => simp [first, Bind.bind, Except.bind] at done
    | ok middle =>
      simp only [first, Bind.bind, Except.bind] at done
      exact (ih done).trans (machine_of_deposit first)

def wayTo (path : Text) : List Text :=
  componentsOf (Path.directory path)

theorem deposit_eq_ok_iff : workspace.deposit encoding path text = .ok after ↔
    ∃ made, workspace.makeDirectories (Path.directory path) = .ok made ∧
      made.writeText encoding path text = (after, .ok ()) := by
  unfold deposit
  cases workspace.makeDirectories (Path.directory path) with
  | error fault => simp
  | ok made =>
    cases wrote : made.writeText encoding path text with
    | mk final result => cases result <;> simp [wrote]

theorem makeDirectories_eq_ok_iff : workspace.makeDirectories path = .ok after ↔
    Char.ofNat 0 ∉ path ∧ workspace.makeFrom (componentsOf path).reverse = .ok after := by
  unfold makeDirectories
  by_cases null : Char.ofNat 0 ∈ path <;> simp [null]

/-- A path that the system takes: its length and that of its components are within the limits. -/
structure Nameable (path : Text) : Prop where
  legible : Char.ofNat 0 ∉ path
  short : (Utf8.encode path).length < pathLimit
  components : ∀ component ∈ componentsOf path, (Utf8.encode component).length ≤ nameLimit

instance (path : Text) : Decidable (Nameable path) :=
  decidable_of_iff (Char.ofNat 0 ∉ path ∧ (Utf8.encode path).length < pathLimit ∧
      ∀ component ∈ componentsOf path, (Utf8.encode component).length ≤ nameLimit)
    ⟨fun ⟨legible, short, components⟩ => ⟨legible, short, components⟩,
      fun nameable => ⟨nameable.legible, nameable.short, nameable.components⟩⟩

theorem legible_of_mem_componentsOf {component : Text} (legible : Char.ofNat 0 ∉ path)
    (member : component ∈ componentsOf path) : Char.ofNat 0 ∉ component := by
  intro null
  have inside := subset_of_mem_splitAt (List.mem_of_mem_filter member)
  exact legible (inside null)

theorem legible_of_componentsOf
    (legible : ∀ component ∈ componentsOf path, Char.ofNat 0 ∉ component) : Char.ofNat 0 ∉ path := by
  intro null
  rw [← join_splitAt '/' path] at null
  obtain ⟨part, among, inside⟩ := (exists_mem_of_mem_join null).resolve_left (by decide)
  refine legible part ?_ inside
  rw [componentsOf, List.mem_filter]
  refine ⟨among, ?_⟩
  have some_text : part ≠ [] := List.ne_nil_of_mem inside
  have no_dot : part ≠ ['.'] := by
    rintro rfl
    revert inside
    decide
  simp [some_text, no_dot]

theorem Nameable.isStep {component : Text} (nameable : Nameable path)
    (member : component ∈ componentsOf path) : IsStep component := by
  obtain ⟨some_text, no_dot, whole⟩ := ne_of_mem_componentsOf member
  exact ⟨⟨some_text, no_dot⟩, whole, legible_of_mem_componentsOf nameable.legible member,
    nameable.components component member⟩

theorem Leads.short {components : List Text} {final : Place} {component : Text}
    (leads : workspace.Leads place components final) (member : component ∈ components) :
    (Utf8.encode component).length ≤ nameLimit := by
  induction leads with
  | nil => cases member
  | cons step _ ih =>
    rcases List.mem_cons.1 member with rfl | later
    next =>
      by_cases up : component = ['.', '.']
      next => rw [up]; decide
      next => exact step.short up
    next => exact ih later

theorem nameable_of_locate (located : workspace.locate path path = .ok place) : Nameable path := by
  obtain ⟨legible, short, leads⟩ := locate_eq_ok_iff.1 located
  exact ⟨legible, short, fun _ member => leads.short member⟩

theorem written_of_writeText (tree : before.IsTree) (known : before.coding encoding = .ok coding)
    (wrote : before.writeText encoding path text = (after, .ok ())) :
    ∃ bytes, coding.encode text = .ok bytes ∧ before.locate path path = .ok (placeOf path) ∧
      before.get? (placeOf path) ≠ some .directory ∧
      before.get? (placeOf path).dropLast = some .directory ∧
      after = before.put (placeOf path) (.file bytes) := by
  obtain ⟨-, coding', bytes, known', encoded, wrote⟩ := writeText_eq_ok_iff.1 wrote
  cases known.symm.trans known'
  obtain ⟨place, located, free, around, rfl⟩ := tree.write_eq_ok_iff.1 wrote
  have here := placeOf_of_locate located
  subst here
  exact ⟨bytes, encoded, located, free, around, rfl⟩

theorem ne_nil_of_free (free : workspace.get? place ≠ some .directory) : place ≠ [] := by
  rintro rfl
  exact free rfl

theorem filled_of_writeText (tree : before.IsTree) (known : before.coding encoding = .ok coding)
    (wrote : before.writeText encoding path text = (after, .ok ())) :
    Filled coding [(path, text)] before after := by
  obtain ⟨bytes, encoded, located, free, around, rfl⟩ := written_of_writeText tree known wrote
  have some_place := ne_nil_of_free free
  obtain ⟨legible, short, leads⟩ := locate_eq_ok_iff.1 located
  have kept (place : Place) (entry : Entry) (apart : place ≠ placeOf path)
      (found : before.get? place = some entry) :
      (before.put (placeOf path) (.file bytes)).get? place = some entry := by
    rwa [get?_put some_place, if_neg apart]
  have here : (before.put (placeOf path) (.file bytes)).get? (placeOf path) = some (.file bytes) := by
    rw [get?_put some_place, if_pos rfl]
  refine ⟨?_, rfl, by simpa using free, ?_, by simpa using kept, ?_⟩
  next =>
    refine tree.put some_place around ?_ fun directory => absurd directory free
    intro name member
    have step := (nameable_of_locate located).isStep (mem_componentsOf_of_mem_placeOf member)
    exact step.isName (isPlain_of_mem_placeOf member).ne_dots
  next =>
    simp only [List.forall_mem_singleton]
    refine ⟨bytes, encoded, read_eq_ok_iff.2 ⟨_, locate_eq_ok_iff.2 ⟨legible, short, ?_⟩, here⟩⟩
    refine leads.mono fun place directory => kept place _ ?_ directory
    rintro rfl
    exact free directory
  next =>
    intro place entry apart nothing found
    rw [get?_put some_place, if_neg (apart _ (List.mem_singleton_self _))] at found
    simp [nothing] at found

theorem short_of_makeFrom {outer : List Text} (made : workspace.makeFrom outer = .ok after) :
    ∀ component ∈ outer, (Utf8.encode component).length ≤ nameLimit := by
  cases outer with
  | nil => simp
  | cons component outer =>
    -- The last directory is made behind all the others, so its way was followed.
    obtain ⟨around, last⟩ : ∃ around : Workspace, around.makeOne (component :: outer) = .ok after := by
      unfold makeFrom at made
      split at made
      next =>
        cases front : workspace.makeFrom outer with
        | error fault => simp [front, Bind.bind, Except.bind] at made
        | ok around => exact ⟨around, by simpa [front, Bind.bind, Except.bind] using made⟩
      next => exact ⟨workspace, made⟩
    obtain ⟨-, place, leads, -⟩ := makeOne_eq_ok_iff.1 last
    exact fun step member => leads.short (List.mem_reverse.2 member)

theorem furnished_makeDirectories (tree : before.IsTree)
    (made : before.makeDirectories path = .ok after) : Furnished (componentsOf path) before after := by
  obtain ⟨legible, made⟩ := makeDirectories_eq_ok_iff.1 made
  have steps (component : Text) (member : component ∈ (componentsOf path).reverse) :
      IsStep component := by
    have short := short_of_makeFrom made component member
    rw [List.mem_reverse] at member
    obtain ⟨some_text, no_dot, whole⟩ := ne_of_mem_componentsOf member
    exact ⟨⟨some_text, no_dot⟩, whole, legible_of_mem_componentsOf legible member, short⟩
  have furnished := (made_makeFrom tree steps made).furnished
  rwa [List.reverse_reverse] at furnished

structure Deposits (coding : Coding) (written : List (Text × Text)) (before after : Workspace) :
    Prop extends Filled coding written before after where
  onWay : ∀ place, (∀ item ∈ written, place ≠ placeOf item.1) → before.get? place = none →
    after.get? place = some .directory →
    ∃ item ∈ written, ∃ front, front <+: wayTo item.1 ∧ place = endOf front

theorem deposited (tree : before.IsTree) (known : before.coding encoding = .ok coding)
    (done : before.deposit encoding path text = .ok after) :
    Deposits coding [(path, text)] before after := by
  obtain ⟨made, directories, wrote⟩ := deposit_eq_ok_iff.1 done
  have furnished := furnished_makeDirectories tree directories
  have machine := machine_of_makeDirectories directories
  rw [← coding_of_machine machine] at known
  refine ⟨(furnished.filled machine coding).trans (filled_of_writeText furnished.tree known wrote)
    (by simp), ?_⟩
  intro place apart nothing directory
  obtain ⟨bytes, -, -, free, -, rfl⟩ := written_of_writeText furnished.tree known wrote
  rw [get?_put (ne_nil_of_free free), if_neg (apart _ (List.mem_singleton_self _))] at directory
  exact ⟨_, List.mem_singleton_self _, (furnished.added place _ nothing directory).2⟩

structure IsOpen (workspace : Workspace) (path : Text) : Prop where
  nameable : Nameable path
  -- The path names what it leads to.
  named : ∃ name, componentsOf path = wayTo path ++ [name] ∧ IsPlain name
  clear : ∀ front, front <+: wayTo path → ∀ bytes,
    workspace.get? (endOf front) ≠ some (.file bytes)
  free : workspace.get? (placeOf path) ≠ some .directory
  apart : ∀ front, front <+: wayTo path → endOf front ≠ placeOf path

theorem IsOpen.passable (opened : workspace.IsOpen path) : workspace.Passable (wayTo path) where
  steps := fun _ member =>
    opened.nameable.isStep ((prefix_componentsOf_directory path).subset member)
  clear := opened.clear
  short := by
    obtain ⟨name, whole, plain⟩ := opened.named
    have limit := opened.nameable.short
    have within := length_encode_join_le (List.Sublist.refl (componentsOf path))
    rw [whole] at within
    have some_name : 0 < (Utf8.encode name).length := by
      cases name with
      | nil => exact absurd rfl plain.ne_nil
      | cons c name =>
        have := String.length_utf8EncodeChar c
        have := c.utf8Size_pos
        simp only [Utf8.encode, List.flatMap_cons, List.length_append]
        omega
    by_cases direct : wayTo path = []
    next =>
      rw [direct] at within ⊢
      simp only [wayText, join, List.nil_append] at within ⊢
      have one : (Utf8.encode ['/']).length = 1 := by decide
      omega
    next =>
      rw [join_append_singleton _ _ direct] at within
      have one : (String.utf8EncodeChar '/').length = 1 := by decide
      simp only [wayText, Utf8.encode, List.flatMap_cons, List.flatMap_append, List.flatMap_nil,
        List.append_nil, List.length_append] at *
      omega

theorem exists_deposit (tree : workspace.IsTree) (opened : workspace.IsOpen path)
    (known : workspace.coding encoding = .ok coding) (encoded : coding.encode text = .ok bytes) :
    ∃ after, workspace.deposit encoding path text = .ok after := by
  have nameable := opened.nameable
  have passable := opened.passable
  obtain ⟨name, whole, plain⟩ := opened.named
  rw [← List.reverse_reverse (wayTo path)] at passable
  obtain ⟨made, directories⟩ := exists_makeFrom tree passable
  rw [List.reverse_reverse] at passable
  have steps (component : Text) (member : component ∈ (wayTo path).reverse) : IsStep component :=
    passable.steps component (List.mem_reverse.1 member)
  obtain ⟨furnished, leads, directory⟩ := made_makeFrom tree steps directories
  rw [List.reverse_reverse] at furnished leads directory
  have last := nameable.isStep (show name ∈ componentsOf path by simp [whole])
  have place : placeOf path = endOf (wayTo path) ++ [name] := by
    rw [placeOf_eq, whole, List.foldl_append, endOf]
    exact foldl_enter_plain _ (by simpa using plain)
  have located : made.locate path path = .ok (placeOf path) := by
    refine locate_eq_ok_iff.2 ⟨nameable.legible, nameable.short, ?_⟩
    rw [whole, Leads.append_iff, place]
    exact ⟨_, leads, .cons ⟨directory, fun _ => last.short, by rw [if_neg plain.ne_dots]⟩ (.nil _)⟩
  have free : made.get? (placeOf path) ≠ some .directory := by
    intro taken
    cases known : workspace.get? (placeOf path) with
    | none =>
      obtain ⟨-, front, part, same⟩ := furnished.added _ _ known taken
      exact opened.apart front part same.symm
    | some entry =>
      cases (furnished.kept _ _ known).symm.trans taken
      exact opened.free known
  have writes (bytes : Bytes) : made.write path bytes =
      .ok (made.put (placeOf path) (.file bytes)) :=
    furnished.tree.write_eq_ok_iff.2 ⟨_, located, free, by rw [place]; simpa using directory, rfl⟩
  refine ⟨made.put (placeOf path) (.file bytes), deposit_eq_ok_iff.2 ⟨made, ?_, ?_⟩⟩
  next =>
    have legible : Char.ofNat 0 ∉ Path.directory path :=
      fun null => nameable.legible (directory_subset path null)
    exact makeDirectories_eq_ok_iff.2 ⟨legible, directories⟩
  next =>
    rw [← coding_of_machine (machine_of_makeFrom directories)] at known
    exact writeText_eq_ok_iff.2 ⟨⟨_, writes []⟩, coding, bytes, known, encoded, writes bytes⟩

theorem Deposits.refl (tree : workspace.IsTree) (coding : Coding) :
    Deposits coding [] workspace workspace where
  toFilled := .refl tree coding
  onWay := by
    intro place _ nothing found
    simp [nothing] at found

theorem Deposits.trans {more : List (Text × Text)} (early : Deposits coding written before middle)
    (late : Deposits coding more middle after)
    (new : ∀ item ∈ more, ∀ other ∈ written, placeOf item.1 ≠ placeOf other.1) :
    Deposits coding (written ++ more) before after where
  toFilled := early.toFilled.trans late.toFilled new
  onWay := by
    intro place apart nothing found
    obtain ⟨first, second⟩ := List.forall_mem_append.1 apart
    cases between : middle.get? place with
    | none =>
      obtain ⟨item, member, onWay⟩ := late.onWay place second between found
      exact ⟨item, List.mem_append_right _ member, onWay⟩
    | some made =>
      cases (late.kept place made second between).symm.trans found
      obtain ⟨item, member, onWay⟩ := early.onWay place first nothing between
      exact ⟨item, List.mem_append_left _ member, onWay⟩

theorem depositAll_snoc : depositAll encoding workspace (written ++ [(path, text)]) = .ok after ↔
    ∃ middle, depositAll encoding workspace written = .ok middle ∧
      middle.deposit encoding path text = .ok after := by
  unfold depositAll
  simp only [List.foldlM_append, List.foldlM_cons, List.foldlM_nil, bind_pure]
  cases written.foldlM (fun workspace item => workspace.deposit encoding item.1 item.2) workspace with
  | error fault => simp [Bind.bind, Except.bind]
  | ok middle => simp [Bind.bind, Except.bind]

theorem deposits (tree : before.IsTree) (known : before.coding encoding = .ok coding)
    (distinct : (written.map fun item => placeOf item.1).Nodup)
    (done : depositAll encoding before written = .ok after) :
    Deposits coding written before after := by
  induction written using List.reverseRecOn generalizing after with
  | nil =>
    cases done
    exact .refl tree coding
  | append_singleton written item ih =>
    obtain ⟨middle, early, late⟩ := depositAll_snoc.1 done
    rw [List.map_append, List.map_singleton, List.nodup_append] at distinct
    have first := ih distinct.1 early
    rw [← coding_of_machine first.machine] at known
    refine first.trans (deposited first.tree known late) ?_
    simp only [List.forall_mem_singleton]
    intro other member same
    exact distinct.2.2 _ (List.mem_map_of_mem member) _ (by simp) same.symm

namespace Deposits

variable (done : Deposits coding written before after)

include done

theorem elsewhere (outside : ∀ item ∈ written, place ≠ placeOf item.1) :
    after.get? place = before.get? place ∨
      before.get? place = none ∧ after.get? place = some .directory ∧
        ∃ item ∈ written, ∃ front, front <+: wayTo item.1 ∧ place = endOf front := by
  cases known : before.get? place with
  | some entry => exact .inl (done.kept place entry outside known)
  | none =>
    cases found : after.get? place with
    | none => exact .inl rfl
    | some entry =>
      cases done.added place entry outside known found
      exact .inr ⟨rfl, rfl, done.onWay place outside known found⟩

-- An open path that no text was put behind is still open.
theorem isOpen (opened : before.IsOpen path)
    (new : ∀ item ∈ written, placeOf path ≠ placeOf item.1)
    (clear : ∀ item ∈ written, ∀ front, front <+: wayTo path → endOf front ≠ placeOf item.1)
    (apart : ∀ item ∈ written, ∀ front, front <+: wayTo item.1 → endOf front ≠ placeOf path) :
    after.IsOpen path where
  nameable := opened.nameable
  named := opened.named
  clear := by
    intro front part bytes found
    rw [done.get?_file_iff fun item member => clear item member front part] at found
    exact opened.clear front part bytes found
  free := by
    intro taken
    cases known : before.get? (placeOf path) with
    | none =>
      obtain ⟨item, member, front, part, same⟩ := done.onWay _ new known taken
      exact apart item member front part same.symm
    | some entry =>
      cases (done.kept _ _ new known).symm.trans taken
      exact opened.free known
  apart := opened.apart

end Deposits

theorem toOption_readText_congr (machine : after.machine = before.machine) (encoding : Text)
    (same : ∀ bytes, after.read path path = .ok bytes ↔ before.read path path = .ok bytes) :
    (after.readText encoding path path).toOption = (before.readText encoding path path).toOption := by
  unfold readText
  rw [coding_of_machine machine]
  cases read : before.read path path with
  | ok bytes =>
    rw [(same bytes).2 read]
  | error fault =>
    cases read' : after.read path path with
    | ok bytes => simp [(same bytes).1 read'] at read
    | error fault' => split <;> rfl

end Inlay.Workspace
