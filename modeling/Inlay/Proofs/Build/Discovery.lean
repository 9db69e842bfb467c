import Inlay.Build.Discovery
import Inlay.Proofs.Config.Form
import Inlay.Proofs.Workspace.Tree

set_option autoImplicit false

namespace Inlay

open Text Workspace

variable {workspace : Workspace} {root suffix name text : Text} {document : Document}
variable {documents : List Document}

-- The marks of patterns, and the slash.
def isMark (c : Char) : Bool :=
  c == '*' || c == '?' || c == '[' || c == '/'

def IsUnmarked (text : Text) : Prop :=
  ∀ c ∈ text, isMark c = false

-- A suffix that the schema admits has no marks.
theorem isUnmarked_of_admits (admits : Form.suffix.admits suffix = true) : IsUnmarked suffix := by
  intro c member
  have allowed := Form.mayHave_of_admits admits c member
  by_contra mark
  rw [Bool.not_eq_false, isMark] at mark
  simp only [Bool.or_eq_true, beq_iff_eq] at mark
  rcases mark with ((rfl | rfl) | rfl) | rfl <;> revert allowed <;> decide

namespace Text.Glob

theorem ofText_of_isUnmarked (unmarked : IsUnmarked text) : ofText text = text.map .literal := by
  induction text with
  | nil => simp [ofText]
  | cons c text ih =>
    have plain := unmarked c List.mem_cons_self
    simp only [isMark, Bool.or_eq_false_iff, beq_eq_false_iff_ne] at plain
    rw [ofText, if_neg plain.1.1.1, if_neg plain.1.1.2, if_neg plain.1.2,
      ih fun d member => unmarked d (List.mem_cons_of_mem _ member)]
    rfl

theorem accepts_literals (mark text : Text) :
    accepts (mark.map .literal) text = true ↔ text = mark := by
  induction mark generalizing text with
  | nil => cases text <;> simp [accepts]
  | cons m mark ih => cases text <;> simp [accepts, ih]

theorem accepts_any {glob : Glob} {text : Text} :
    accepts (.any :: glob) text = true ↔ ∃ rest, rest <:+ text ∧ accepts glob rest = true := by
  induction text with
  | nil => simp [accepts]
  | cons c text ih =>
    rw [accepts, Bool.or_eq_true, ih]
    constructor
    next =>
      rintro (here | ⟨rest, within, later⟩)
      next => exact ⟨_, List.suffix_refl _, here⟩
      next => exact ⟨rest, within.trans (List.suffix_cons _ _), later⟩
    next =>
      rintro ⟨rest, within, accepted⟩
      rcases List.suffix_cons_iff.1 within with rfl | within
      next => exact .inl accepted
      next => exact .inr ⟨rest, within, accepted⟩

end Text.Glob

theorem matchesSuffix_iff (unmarked : IsUnmarked suffix) :
    matchesSuffix suffix name = true ↔ suffix <:+ name := by
  have literal : (Glob.ofText ('*' :: suffix)).accepts name = true ↔ suffix <:+ name := by
    rw [Glob.ofText, if_pos rfl, Glob.ofText_of_isUnmarked unmarked, Glob.accepts_any]
    simp [Glob.accepts_literals]
  have no_star : suffix ≠ ['*'] := by
    rintro rfl
    exact absurd (unmarked '*' List.mem_cons_self) (by decide)
  rw [matchesSuffix, Bool.and_eq_true, Bool.and_eq_true, literal, endsWith, List.isSuffixOf_iff_suffix]
  simp [no_star]

theorem matchesSuffix_eq (unmarked : IsUnmarked suffix) : matchesSuffix suffix = endsWith suffix := by
  funext name
  rw [Bool.eq_iff_iff, matchesSuffix_iff unmarked, endsWith, List.isSuffixOf_iff_suffix]

theorem any_isBadPattern (unmarked : IsUnmarked suffix) :
    (splitAt '/' ('*' :: suffix)).any isBadPattern = false := by
  have absent (c : Char) (mark : isMark c = true) : c ∉ suffix := by
    intro member
    simp [unmarked c member] at mark
  have whole : splitAt '/' ('*' :: suffix) = ['*' :: suffix] :=
    splitAt_of_not_mem (by simp [absent '/' rfl])
  -- Two stars need two of them, and the suffix has none.
  have once : cut? ['*', '*'] ('*' :: suffix) = none := by
    rw [cut?_eq_none_iff]
    intro twice
    have stars := twice.sublist.count_le '*'
    have none := List.count_eq_zero_of_not_mem (absent '*' rfl)
    simp [none] at stars
  rw [whole, List.any_cons, List.any_nil, isBadPattern, once]
  simp

theorem mem_discover (tree : workspace.IsTree)
    (found : discover? workspace root suffix = some documents) :
    document ∈ documents ↔ '/' ∉ suffix ∧ ∃ place, workspace.locate root root = .ok place ∧
      document.components ≠ [] ∧
      (∃ bytes, workspace.get? (place ++ document.components) = some (.file bytes)) ∧
      matchesSuffix suffix document.name = true := by
  unfold discover? at found
  split at found
  next => cases found
  next =>
    split at found
    next slash =>
      cases found
      simp only [List.contains_iff_mem] at slash
      simp [slash]
    next whole =>
      simp only [List.contains_iff_mem] at whole
      split at found
      next fault unlocated =>
        cases found
        simp [unlocated]
      next place located =>
        cases found
        simp only [List.mem_map, List.mem_mergeSort, List.mem_filter, tree.mem_filesBelow, located,
          Except.ok.injEq, whole, not_false_eq_true, true_and, exists_eq_left']
        constructor
        next =>
          rintro ⟨components, ⟨⟨nonempty, file⟩, named⟩, rfl⟩
          exact ⟨nonempty, file, named⟩
        next =>
          rintro ⟨nonempty, file, named⟩
          exact ⟨document.components, ⟨⟨nonempty, file⟩, named⟩, rfl⟩

theorem discover_of_sorted {place : Place} {files : List (List Text)} (unmarked : IsUnmarked suffix)
    (located : workspace.locate root root = .ok place)
    (found : (workspace.filesBelow place).filter
      (fun components => endsWith suffix (Document.name ⟨components⟩)) = files)
    (sorted : files.Pairwise fun first second => lexLe Text.le first second = true) :
    discover? workspace root suffix = some (files.map Document.mk) := by
  have whole : suffix.contains '/' = false := by
    by_contra slash
    rw [Bool.not_eq_false, List.contains_iff_mem] at slash
    exact absurd (unmarked '/' slash) (by decide)
  rw [discover?, any_isBadPattern unmarked, if_neg (by simp), whole, if_neg (by simp), located]
  simp only [matchesSuffix_eq unmarked, found, List.mergeSort_of_pairwise sorted]

theorem nodup_discover (tree : workspace.IsTree)
    (found : discover? workspace root suffix = some documents) : documents.Nodup := by
  unfold discover? at found
  split at found
  next => cases found
  next =>
    split at found
    next => cases found; exact List.nodup_nil
    next =>
      split at found
      next => cases found; exact List.nodup_nil
      next place located =>
        cases found
        have distinct := (tree.nodup_filesBelow place).filter
          fun components => matchesSuffix suffix (Document.name ⟨components⟩)
        refine List.Pairwise.map _ ?_ ((List.mergeSort_perm _ _).nodup_iff.2 distinct)
        intro first second apart same
        exact apart (congrArg Document.components same)

theorem isName_of_mem_discover (tree : workspace.IsTree)
    (found : discover? workspace root suffix = some documents) (member : document ∈ documents) :
    document.components ≠ [] ∧ ∀ component ∈ document.components, IsName component := by
  obtain ⟨-, place, -, nonempty, ⟨bytes, file⟩, -⟩ := (mem_discover tree found).1 member
  exact ⟨nonempty, fun component inside => tree.named _ _ file component (by simp [inside])⟩

theorem relative_injective {other : Document} (tree : workspace.IsTree)
    (found : discover? workspace root suffix = some documents) (member : document ∈ documents)
    (member' : other ∈ documents) (same : document.relative = other.relative) : document = other := by
  obtain ⟨nonempty, names⟩ := isName_of_mem_discover tree found member
  obtain ⟨nonempty', names'⟩ := isName_of_mem_discover tree found member'
  have parts := join_injective nonempty nonempty' (fun part inside => (names part inside).whole)
    (fun part inside => (names' part inside).whole) same
  cases document
  cases other
  exact congrArg Document.mk parts

theorem exists_discover (unmarked : IsUnmarked suffix) (workspace : Workspace) (root : Text) :
    ∃ documents, discover? workspace root suffix = some documents := by
  unfold discover?
  rw [any_isBadPattern unmarked]
  split
  next bad => cases bad
  next =>
    split
    next => exact ⟨_, rfl⟩
    next => split <;> exact ⟨_, rfl⟩

section Sources

-- A source directory with some files in it and nothing else.
def Workspace.ofSources (files : List (Text × Bytes)) : Workspace where
  entries := (["src".toList], .directory) :: files.map fun file => (["src".toList, file.1], .file file.2)

-- Its documents, by their names.
def documentsOf (names : List Text) : List Document :=
  names.map fun name => ⟨[name]⟩

variable {files : List (Text × Bytes)} {names : List Text}

theorem isTree_ofSources (named : ∀ file ∈ files, IsName file.1)
    (distinct : (files.map Prod.fst).Nodup) : (ofSources files).IsTree := by
  have source : IsName "src".toList := by decide
  refine isTree_of_entries ?_ ?_
  next =>
    refine List.forall_mem_cons.2 ⟨⟨rfl, by simpa using source⟩, ?_⟩
    simp only [List.forall_mem_map, List.forall_mem_cons, List.not_mem_nil, false_implies,
      implies_true, and_true]
    exact fun file member => ⟨rfl, source, named file member⟩
  next =>
    have places : ((files.map Prod.fst).map fun name => ["src".toList, name]).Nodup :=
      List.Pairwise.map _ (fun first second apart same => apart (by simpa using same)) distinct
    simpa [ofSources, List.map_map, Function.comp_def] using places

theorem locate_ofSources (files : List (Text × Bytes)) :
    (ofSources files).locate "/src".toList "/src".toList = .ok ["src".toList] :=
  rfl

theorem hasDirectory_ofSources (files : List (Text × Bytes)) :
    (ofSources files).hasDirectory "/src".toList = .ok true :=
  rfl

theorem filesBelow_ofSources (files : List (Text × Bytes)) :
    (ofSources files).filesBelow ["src".toList] = (files.map Prod.fst).map fun name => [name] := by
  simp [filesBelow, ofSources, List.filterMap_map, Function.comp_def]

theorem discover_ofSources
    (hosts : (files.map Prod.fst).filter (endsWith ".svelte".toList) = names)
    (sorted : (names.map fun name => [name]).Pairwise fun first second =>
      lexLe Text.le first second = true) :
    discover? (ofSources files) "/src".toList ".svelte".toList = some (documentsOf names) := by
  have unmarked : IsUnmarked ".svelte".toList := isUnmarked_of_admits (by decide)
  have found : ((ofSources files).filesBelow ["src".toList]).filter
      (fun components => endsWith ".svelte".toList (Document.name ⟨components⟩)) =
        names.map fun name => [name] := by
    rw [filesBelow_ofSources, ← hosts, List.filter_map]
    rfl
  have documents := discover_of_sorted unmarked (locate_ofSources files) found sorted
  rwa [List.map_map] at documents

end Sources
end Inlay
