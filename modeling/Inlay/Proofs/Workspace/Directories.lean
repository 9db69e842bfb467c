import Inlay.Proofs.Workspace.Tree

set_option autoImplicit false

namespace Inlay.Workspace

open Text

variable {workspace before middle after : Workspace} {place next : Place} {entry : Entry}
variable {shown path component : Text} {front way outer : List Text}

-- A tree stays one when something comes into a directory of it, or replaces what has nothing
-- below.
theorem IsTree.put (tree : workspace.IsTree) (some_place : place ≠ [])
    (around : workspace.get? place.dropLast = some .directory)
    (named : ∀ name ∈ place, IsName name)
    (same : workspace.get? place = some .directory → entry = .directory) :
    (workspace.put place entry).IsTree where
  nested := by
    intro other found get
    rw [get?_put some_place] at get ⊢
    by_cases here : other = place
    next =>
      subst here
      have shorter : other.dropLast ≠ other := by
        intro equal
        have := congrArg List.length equal
        have := List.length_pos_iff.2 some_place
        simp only [List.length_dropLast] at *
        omega
      rwa [if_neg shorter]
    next =>
      rw [if_neg here] at get
      have outside := tree.nested other found get
      split
      next inside =>
        rw [inside] at outside
        rw [same outside]
      next => exact outside
  named := by
    intro other found get
    rw [get?_put some_place] at get
    split at get
    next here => rwa [here]
    next => exact tree.named other found get
  distinct := by
    unfold Workspace.put
    rw [List.map_append, List.map_singleton, List.nodup_append]
    refine ⟨tree.distinct.sublist (List.filter_sublist.map _), by simp, ?_⟩
    rintro name member other new rfl
    rw [List.mem_singleton] at new
    subst new
    obtain ⟨known, kept, same⟩ := List.mem_map.1 member
    rw [List.mem_filter] at kept
    simp [same] at kept

def endOf (way : List Text) : Place :=
  way.foldl Path.enter []

/-- A component that goes somewhere and that a name can have. -/
structure IsStep (component : Text) : Prop where
  moves : component ≠ [] ∧ component ≠ ['.']
  whole : '/' ∉ component
  legible : Char.ofNat 0 ∉ component
  short : (Utf8.encode component).length ≤ nameLimit

theorem IsStep.isName (step : IsStep component) (down : component ≠ ['.', '.']) :
    IsName component where
  plain := by simp [isPlainComponent, step.moves, down]
  whole := step.whole
  legible := step.legible
  short := step.short

theorem Leads.eq_endOf (leads : workspace.Leads [] way place)
    (steps : ∀ component ∈ way, IsStep component) : place = endOf way :=
  leads.eq_foldl fun component member => (steps component member).moves

structure Furnished (way : List Text) (before after : Workspace) : Prop where
  tree : after.IsTree
  kept : ∀ place entry, before.get? place = some entry → after.get? place = some entry
  added : ∀ place entry, before.get? place = none → after.get? place = some entry →
    entry = .directory ∧ ∃ front, front <+: way ∧ place = endOf front

theorem Furnished.refl (tree : before.IsTree) (way : List Text) : Furnished way before before where
  tree := tree
  kept := fun _ _ found => found
  added := by
    intro place entry nothing found
    simp [nothing] at found

theorem Furnished.trans (early : Furnished way before middle) (late : Furnished way middle after) :
    Furnished way before after where
  tree := late.tree
  kept := fun place entry found => late.kept place entry (early.kept place entry found)
  added := by
    intro place entry nothing found
    cases between : middle.get? place with
    | none => exact late.added place entry between found
    | some made =>
      have known := late.kept place made between
      rw [found] at known
      cases known
      exact early.added place entry nothing between

theorem Furnished.mono (furnished : Furnished front before after) (longer : front <+: way) :
    Furnished way before after where
  tree := furnished.tree
  kept := furnished.kept
  added := by
    intro place entry nothing found
    obtain ⟨directory, begun, part, same⟩ := furnished.added place entry nothing found
    exact ⟨directory, begun, part.trans longer, same⟩

-- What is on a way after directories were made is a directory or was there before.
theorem Furnished.get?_file {bytes : Bytes} (furnished : Furnished way before after)
    (found : after.get? place = some (.file bytes)) : before.get? place = some (.file bytes) := by
  cases known : before.get? place with
  | none => cases (furnished.added place _ known found).1
  | some entry =>
    have kept := furnished.kept place entry known
    rwa [found, eq_comm] at kept

def wayText (way : List Text) : Text :=
  '/' :: join ['/'] way

theorem makeOne_cons (workspace : Workspace) (component : Text) (outer : List Text) :
    workspace.makeOne (component :: outer) =
      let way := (component :: outer).reverse
      if pathLimit ≤ (Utf8.encode (wayText way)).length then .error (.nameTooLong (wayText way))
      else
        match way.foldlM (workspace.enter (wayText way)) [] with
        | .error fault => .error fault
        | .ok place =>
          match workspace.get? place with
          | some .directory => .ok workspace
          | some (.file _) => .error (.occupied (wayText way))
          | none => .ok (workspace.put place .directory) := by
  unfold makeOne
  dsimp only
  rw [← wayText]
  split
  next => rfl
  next =>
    simp only [List.reverse_cons, List.foldlM_append, List.foldlM_cons, List.foldlM_nil, bind_pure]
    cases outer.reverse.foldlM (workspace.enter (wayText (outer.reverse ++ [component]))) [] with
    | error fault => rfl
    | ok around =>
      change (workspace.enter _ around component >>= fun place => _) = _
      cases entered : workspace.enter (wayText (outer.reverse ++ [component])) around component with
      | error fault => simp [entered, Bind.bind, Except.bind]
      | ok place =>
        simp only [entered, Bind.bind, Except.bind]
        cases workspace.get? place with
        | none => rfl
        | some entry => cases entry <;> rfl

theorem makeOne_eq_ok_iff :
    workspace.makeOne (component :: outer) = .ok after ↔
      (Utf8.encode (wayText (component :: outer).reverse)).length < pathLimit ∧
      ∃ place, workspace.Leads [] (component :: outer).reverse place ∧
        (workspace.get? place = some .directory ∧ after = workspace ∨
          workspace.get? place = none ∧ after = workspace.put place .directory) := by
  rw [makeOne_cons]
  dsimp only
  generalize (component :: outer).reverse = way
  simp only [← @foldlM_enter_eq_ok_iff _ _ _ (wayText way)]
  by_cases long : pathLimit ≤ (Utf8.encode (wayText way)).length
  next => simp [long, Nat.not_lt.2 long]
  next =>
    rw [if_neg long]
    cases way.foldlM (workspace.enter (wayText way)) [] with
    | error fault => simp
    | ok place =>
      cases found : workspace.get? place with
      | none => simp [Nat.lt_of_not_le long, found, eq_comm]
      | some entry => cases entry <;> simp [Nat.lt_of_not_le long, found, eq_comm]

/-- What is behind a way after its directories were made. -/
structure Made (way : List Text) (before after : Workspace) : Prop where
  furnished : Furnished way before after
  leads : after.Leads [] way (endOf way)
  directory : after.get? (endOf way) = some .directory

theorem made_nil (tree : workspace.IsTree) : Made [] workspace workspace :=
  ⟨.refl tree [], .nil [], rfl⟩

theorem made_makeOne (tree : workspace.IsTree) (steps : ∀ step ∈ component :: outer, IsStep step)
    (made : workspace.makeOne (component :: outer) = .ok after) :
    Made (component :: outer).reverse workspace after := by
  obtain ⟨-, place, leads, found⟩ := makeOne_eq_ok_iff.1 made
  have steps' : ∀ step ∈ (component :: outer).reverse, IsStep step :=
    fun step member => steps step (List.mem_reverse.1 member)
  have here := leads.eq_endOf steps'
  subst here
  rcases found with ⟨known, rfl⟩ | ⟨nothing, rfl⟩
  next => exact ⟨.refl tree _, leads, known⟩
  next =>
    generalize reached : endOf (component :: outer).reverse = place at leads nothing ⊢
    rw [List.reverse_cons, Leads.append_iff] at leads
    obtain ⟨around, front, last⟩ := leads
    obtain ⟨directory, -, next⟩ : workspace.Steps around component place := by
      cases last with
      | cons step rest => cases rest; exact step
    have some_place : place ≠ [] := by
      rintro rfl
      simp [get?] at nothing
    -- Going up from a directory leads to one, so the component went down.
    have down : component ≠ ['.', '.'] := by
      rintro rfl
      have up := tree.nested _ _ directory
      rw [if_pos rfl] at next
      simp [next, up] at nothing
    rw [if_neg down] at next
    subst next
    have kept (other : Place) (entry : Entry) (known : workspace.get? other = some entry) :
        (workspace.put (around ++ [component]) .directory).get? other = some entry := by
      rw [get?_put some_place, if_neg]
      next => exact known
      next =>
        rintro rfl
        simp [nothing] at known
    refine ⟨⟨?_, kept, ?_⟩, ?_, ?_⟩
    next =>
      refine tree.put some_place (by simpa using directory) ?_ (fun _ => rfl)
      intro name member
      rcases List.mem_append.1 member with inside | new
      next => exact tree.named _ _ directory name inside
      next =>
        rw [List.mem_singleton] at new
        subst new
        exact (steps name List.mem_cons_self).isName down
    next =>
      intro other entry missing found
      rw [get?_put some_place] at found
      split at found
      next same => exact ⟨(Option.some.inj found).symm, _, List.prefix_refl _, by rw [same, reached]⟩
      next => simp [missing] at found
    next =>
      rw [reached, List.reverse_cons, Leads.append_iff]
      refine ⟨around, front.mono fun other => kept other _, ?_⟩
      exact .cons ⟨kept _ _ directory, fun _ => (steps component List.mem_cons_self).short,
        by rw [if_neg down]⟩ (.nil _)
    next => rw [reached, get?_put some_place, if_pos rfl]

theorem Made.after_furnished (made : Made way middle after) (furnished : Furnished way before middle) :
    Made way before after :=
  ⟨furnished.trans made.furnished, made.leads, made.directory⟩

theorem made_makeFrom (tree : workspace.IsTree) (steps : ∀ step ∈ outer, IsStep step)
    (made : workspace.makeFrom outer = .ok after) : Made outer.reverse workspace after := by
  induction outer generalizing after with
  | nil =>
    cases made
    exact made_nil tree
  | cons component outer ih =>
    have steps' : ∀ step ∈ outer, IsStep step :=
      fun step member => steps step (List.mem_cons_of_mem _ member)
    unfold makeFrom at made
    split at made
    next =>
      cases around : workspace.makeFrom outer with
      | error fault => simp [around, Bind.bind, Except.bind] at made
      | ok middle =>
        simp only [around, Bind.bind, Except.bind] at made
        have front := (ih steps' around).furnished
        have last := made_makeOne front.tree steps made
        exact last.after_furnished (front.mono (by simp))
    next => exact made_makeOne tree steps made

structure Passable (workspace : Workspace) (way : List Text) : Prop where
  steps : ∀ component ∈ way, IsStep component
  short : (Utf8.encode (wayText way)).length < pathLimit
  clear : ∀ front, front <+: way → ∀ bytes, workspace.get? (endOf front) ≠ some (.file bytes)

theorem Passable.of_prefix (passable : workspace.Passable way) (part : front <+: way) :
    workspace.Passable front where
  steps := fun component member => passable.steps component (part.subset member)
  short := by
    have shorter := length_flatMap_join_le String.utf8EncodeChar ['/'] part.sublist
    have limit := passable.short
    simp only [wayText, Utf8.encode, List.flatMap_cons, List.length_append] at *
    omega
  clear := fun other inside => passable.clear other (inside.trans part)

theorem Passable.mono (passable : workspace.Passable way)
    (furnished : Furnished front workspace after) : after.Passable way where
  steps := passable.steps
  short := passable.short
  clear := fun other part bytes found =>
    passable.clear other part bytes (furnished.get?_file found)

-- Where no file is on the way, it is open or it ends before a missing directory.
theorem Passable.follow (passable : workspace.Passable way) (shown : Text) :
    workspace.Leads [] way (endOf way) ∨
      way.foldlM (workspace.enter shown) [] = .error (.missing shown) := by
  induction way using List.reverseRecOn with
  | nil => exact .inl (.nil [])
  | append_singleton way component ih =>
    have last := passable.steps component (by simp)
    rcases ih (passable.of_prefix (List.prefix_append _ _)) with leads | missing
    next =>
      cases around : workspace.get? (endOf way) with
      | none =>
        right
        rw [List.foldlM_append, foldlM_enter_eq_ok_iff.2 leads]
        simp [Bind.bind, Except.bind, enter, around]
      | some entry =>
        cases entry with
        | file bytes => exact absurd around (passable.clear way (List.prefix_append _ _) bytes)
        | directory =>
          have step : workspace.Steps (endOf way) component (endOf (way ++ [component])) :=
            ⟨around, fun _ => last.short, by simp [endOf, Path.enter, last.moves]⟩
          exact .inl (Leads.append_iff.2 ⟨endOf way, leads, .cons step (.nil _)⟩)
    next =>
      right
      rw [List.foldlM_append, missing]
      rfl

theorem exists_makeOne (passable : workspace.Passable (component :: outer).reverse)
    (leads : workspace.Leads [] (component :: outer).reverse (endOf (component :: outer).reverse)) :
    ∃ after, workspace.makeOne (component :: outer) = .ok after := by
  cases found : workspace.get? (endOf (component :: outer).reverse) with
  | none => exact ⟨_, makeOne_eq_ok_iff.2 ⟨passable.short, _, leads, .inr ⟨found, rfl⟩⟩⟩
  | some entry =>
    cases entry with
    | directory => exact ⟨_, makeOne_eq_ok_iff.2 ⟨passable.short, _, leads, .inl ⟨found, rfl⟩⟩⟩
    | file bytes => exact absurd found (passable.clear _ (List.prefix_refl _) bytes)

theorem exists_makeFrom (tree : workspace.IsTree) (passable : workspace.Passable outer.reverse) :
    ∃ after, workspace.makeFrom outer = .ok after := by
  induction outer with
  | nil => exact ⟨workspace, rfl⟩
  | cons component outer ih =>
    unfold makeFrom
    rcases passable.follow (wayText (component :: outer).reverse) with leads | missing
    next =>
      obtain ⟨after, made⟩ := exists_makeOne passable leads
      exact ⟨after, by rw [made]⟩
    next =>
      have first : workspace.makeOne (component :: outer) =
          .error (.missing (wayText (component :: outer).reverse)) := by
        rw [makeOne_cons]
        simp only [missing, if_neg (Nat.not_le.2 passable.short)]
      have steps := passable.steps
      have inner : outer.reverse <+: (component :: outer).reverse := by simp
      obtain ⟨middle, around⟩ := ih (passable.of_prefix inner)
      have made := made_makeFrom tree (fun step member => steps step (by simp [member])) around
      -- The directory around it is there now, so the last one can be made.
      have leads : middle.Leads [] (component :: outer).reverse
          (endOf (component :: outer).reverse) := by
        have last := steps component (by simp)
        rw [List.reverse_cons, Leads.append_iff]
        exact ⟨_, made.leads, .cons ⟨made.directory, fun _ => last.short,
          by simp [endOf, Path.enter, last.moves]⟩ (.nil _)⟩
      obtain ⟨after, second⟩ := exists_makeOne (passable.mono made.furnished) leads
      exact ⟨after, by simp [first, around, second, Bind.bind, Except.bind]⟩

end Inlay.Workspace
