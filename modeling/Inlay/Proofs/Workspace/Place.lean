import Inlay.Proofs.Text.Split
import Inlay.Workspace

set_option autoImplicit false

namespace Inlay

open Text

def placeOf (path : Text) : Place :=
  (Path.ofText path).components

structure IsPlain (component : Text) : Prop where
  plain : isPlainComponent component = true
  whole : '/' ∉ component

namespace IsPlain

variable {component : Text}

theorem ne_nil (name : IsPlain component) : component ≠ [] := by
  rintro rfl
  exact absurd name.plain (by decide)

theorem ne_dot (name : IsPlain component) : component ≠ ['.'] := by
  rintro rfl
  exact absurd name.plain (by decide)

theorem ne_dots (name : IsPlain component) : component ≠ ['.', '.'] := by
  rintro rfl
  exact absurd name.plain (by decide)

end IsPlain

namespace Workspace

variable {path base text : Text} {components way : List Text}

theorem componentsOf_nil : componentsOf [] = [] := rfl

theorem componentsOf_append_cons (first second : Text) :
    componentsOf (first ++ '/' :: second) = componentsOf first ++ componentsOf second := by
  simp only [componentsOf, splitAt_append_cons, List.filter_append]

theorem componentsOf_cons (text : Text) : componentsOf ('/' :: text) = componentsOf text :=
  componentsOf_append_cons [] text

theorem componentsOf_join (plain : ∀ component ∈ components, IsPlain component) :
    componentsOf (join ['/'] components) = components := by
  cases components with
  | nil => rfl
  | cons first rest =>
    rw [componentsOf, splitAt_join (by simp) fun part member => (plain part member).whole]
    rw [List.filter_eq_self]
    intro component member
    have name := plain component member
    simp [name.ne_nil, name.ne_dot]

theorem ne_of_mem_componentsOf (member : text ∈ componentsOf path) :
    text ≠ [] ∧ text ≠ ['.'] ∧ '/' ∉ text := by
  rw [componentsOf, List.mem_filter] at member
  obtain ⟨split, kept⟩ := member
  simp only [Bool.and_eq_true, bne_iff_ne, ne_eq] at kept
  exact ⟨kept.1, kept.2, not_mem_of_mem_splitAt split⟩

-- Components that lead nowhere do not count.
theorem placeOf_eq (path : Text) : placeOf path = (componentsOf path).foldl Path.enter [] := by
  unfold placeOf Path.ofText componentsOf
  generalize ([] : Place) = place
  induction splitAt '/' path generalizing place with
  | nil => rfl
  | cons component components ih =>
    rw [List.foldl_cons, ih, List.filter_cons]
    split
    next => rfl
    next stays =>
      have idle : component = [] ∨ component = ['.'] := by
        by_contra moves
        rw [not_or] at moves
        simp [moves.1, moves.2] at stays
      rw [Path.enter, if_pos idle]

theorem foldl_enter_plain (place : Place) (plain : ∀ component ∈ components, IsPlain component) :
    components.foldl Path.enter place = place ++ components := by
  induction components generalizing place with
  | nil => simp
  | cons component components ih =>
    have name := plain component List.mem_cons_self
    have later := ih (place ++ [component]) fun other member =>
      plain other (List.mem_cons_of_mem _ member)
    simpa [Path.enter, name.ne_nil, name.ne_dot, name.ne_dots] using later

theorem isPlain_of_mem_placeOf {component : Text} (member : component ∈ placeOf path) :
    IsPlain component := by
  have step (place : Place) (components : List Text)
      (kept : ∀ component ∈ place, IsPlain component)
      (proper : ∀ component ∈ components,
        component ≠ [] ∧ component ≠ ['.'] ∧ '/' ∉ component) :
      ∀ component ∈ components.foldl Path.enter place, IsPlain component := by
    induction components generalizing place with
    | nil => exact kept
    | cons head rest ih =>
      obtain ⟨some_text, no_dot, whole⟩ := proper head List.mem_cons_self
      refine ih _ ?_ fun other later => proper other (List.mem_cons_of_mem _ later)
      intro component member
      by_cases up : head = ['.', '.']
      next =>
        simp only [Path.enter, up] at member
        exact kept component (List.dropLast_subset place (by simpa using member))
      next =>
        simp only [Path.enter, some_text, no_dot, up, or_self, if_false, List.mem_append,
          List.mem_singleton] at member
        rcases member with before | rfl
        next => exact kept component before
        next => exact ⟨by simp [isPlainComponent, some_text, no_dot, up], whole⟩
  rw [placeOf_eq] at member
  exact step [] (componentsOf path) (by simp) (fun _ => ne_of_mem_componentsOf) component member

theorem mem_componentsOf_of_mem_placeOf {component : Text} (member : component ∈ placeOf path) :
    component ∈ componentsOf path := by
  have step (place : Place) (components : List Text) :
      components.foldl Path.enter place ⊆ place ++ components := by
    induction components generalizing place with
    | nil => simp
    | cons head rest ih =>
      refine List.Subset.trans (ih (Path.enter place head)) ?_
      have inner : Path.enter place head ⊆ place ++ [head] := by
        unfold Path.enter
        split
        next => exact List.subset_append_left _ _
        next =>
          split
          next => exact List.Subset.trans (List.dropLast_subset place) (List.subset_append_left _ _)
          next => exact List.Subset.refl _
      rw [List.append_cons]
      exact List.append_subset.2
        ⟨List.Subset.trans inner (List.subset_append_left _ _), List.subset_append_right _ _⟩
  rw [placeOf_eq] at member
  simpa using step [] (componentsOf path) member

theorem componentsOf_toText_of_plain {path : Path}
    (plain : ∀ component ∈ path.components, IsPlain component) :
    componentsOf path.toText = path.components := by
  unfold Path.toText
  split <;>
    simp only [List.cons_append, List.nil_append, componentsOf_cons, componentsOf_join plain]

theorem componentsOf_toText (path : Text) :
    componentsOf (Path.ofText path).toText = placeOf path :=
  componentsOf_toText_of_plain fun _ => isPlain_of_mem_placeOf

section Below

variable {base : Text} {components : List Text}

-- An absolute text has an empty component in front.
theorem isAbsolute_join (plain : ∀ component ∈ components, IsPlain component) :
    Path.isAbsolute (join ['/'] components) = false := by
  unfold Path.isAbsolute
  split
  next rest begins =>
    have nonempty : components ≠ [] := by
      rintro rfl
      cases begins
    have parts := splitAt_join nonempty fun part member => (plain part member).whole
    rw [begins, splitAt, if_pos rfl] at parts
    exact absurd rfl (plain [] (parts ▸ List.mem_cons_self)).ne_nil
  next => rfl

theorem componentsOf_front {front : Text} (ends : front = [] ∨ ∃ text, front = text ++ ['/'])
    (name : Text) : componentsOf (front ++ name) = componentsOf front ++ componentsOf name := by
  rcases ends with rfl | ⟨text, rfl⟩
  next => rfl
  next =>
    rw [List.append_assoc, List.singleton_append, componentsOf_append_cons,
      componentsOf_append_cons, componentsOf_nil, List.append_nil]

-- A text as it is continued below it: nothing, or with a slash at its end.
def opened (base : Text) : Text :=
  if base = [] ∨ base.getLast? = some '/' then base else base ++ ['/']

theorem joinTexts_eq (base : Text) (plain : ∀ component ∈ components, IsPlain component) :
    Path.joinTexts base (join ['/'] components) = opened base ++ join ['/'] components := by
  rw [Path.joinTexts, isAbsolute_join plain, opened, if_neg (by simp)]
  split
  next => rfl
  next => simp

theorem opened_ends (base : Text) :
    opened base = [] ∨ ∃ front, opened base = front ++ ['/'] := by
  unfold opened
  split
  next nothing =>
    refine nothing.imp id fun slash => ?_
    obtain ⟨front, rfl⟩ := List.getLast?_eq_some_iff.1 slash
    exact ⟨front, rfl⟩
  next => exact .inr ⟨base, rfl⟩

theorem componentsOf_opened (base : Text) : componentsOf (opened base) = componentsOf base := by
  unfold opened
  split
  next => rfl
  next => rw [componentsOf_append_cons, componentsOf_nil, List.append_nil]

theorem componentsOf_joinTexts (base : Text)
    (plain : ∀ component ∈ components, IsPlain component) :
    componentsOf (Path.joinTexts base (join ['/'] components)) =
      componentsOf base ++ components := by
  rw [joinTexts_eq base plain, componentsOf_front (opened_ends base), componentsOf_opened,
    componentsOf_join plain]

theorem placeOf_joinTexts (base : Text) (plain : ∀ component ∈ components, IsPlain component) :
    placeOf (Path.joinTexts base (join ['/'] components)) = placeOf base ++ components := by
  rw [placeOf_eq, componentsOf_joinTexts base plain, List.foldl_append, ← placeOf_eq,
    foldl_enter_plain _ plain]

theorem componentsOf_rdropWhile (text : Text) :
    componentsOf (text.reverse.dropWhile (· == '/')).reverse = componentsOf text := by
  -- The induction takes the slashes off one after the other, from the end.
  generalize same : text.reverse = backward
  induction backward generalizing text with
  | nil => simp_all
  | cons c backward ih =>
    have whole : text = backward.reverse ++ [c] := by simpa using congrArg List.reverse same
    rw [List.dropWhile_cons]
    split
    next slash =>
      rw [ih backward.reverse (List.reverse_reverse _), whole, beq_iff_eq.1 slash,
        componentsOf_append_cons, componentsOf_nil, List.append_nil]
    next => rw [← same, List.reverse_reverse]

-- A path is what stands up to its last slash, and a name.
theorem exists_front (path : Text) : ∃ front name, path = front ++ name ∧
    (front = [] ∨ ∃ text, front = text ++ ['/']) ∧ '/' ∉ name := by
  have whole := congrArg List.reverse
    (List.takeWhile_append_dropWhile (p := (· != '/')) (l := path.reverse))
  rw [List.reverse_append, List.reverse_reverse] at whole
  refine ⟨_, _, whole.symm, ?_, ?_⟩
  next =>
    cases behind : path.reverse.dropWhile (· != '/') with
    | nil => exact .inl rfl
    | cons c rest =>
      have slash := List.head?_dropWhile_not (· != '/') path.reverse
      simp only [behind, List.head?_cons, bne_eq_false_iff_eq] at slash
      exact .inr ⟨rest.reverse, by simp [slash]⟩
  next =>
    intro member
    have apart := List.all_eq_true.1 List.all_takeWhile '/' (List.mem_reverse.1 member)
    simp at apart

-- A directory ends in a slash only if it is all slashes.
theorem directory_append {front name : Text}
    (ends : front = [] ∨ ∃ text, front = text ++ ['/']) (whole : '/' ∉ name) :
    Path.directory (front ++ name) =
      if front.all (· == '/') then front else (front.reverse.dropWhile (· == '/')).reverse := by
  have head : ((front ++ name).reverse.dropWhile (· != '/')).reverse = front := by
    rw [List.reverse_append, List.dropWhile_append_of_pos (by
      intro c member
      rw [List.mem_reverse] at member
      simpa using ne_of_mem_of_not_mem member whole)]
    rcases ends with rfl | ⟨text, rfl⟩ <;> simp
  unfold Path.directory
  rw [head]

theorem componentsOf_directory {front name : Text}
    (ends : front = [] ∨ ∃ text, front = text ++ ['/']) (whole : '/' ∉ name) :
    componentsOf (Path.directory (front ++ name)) = componentsOf front := by
  rw [directory_append ends whole]
  split
  next => rfl
  next => exact componentsOf_rdropWhile front

theorem directory_subset (path : Text) : Path.directory path ⊆ path := by
  have head : (path.reverse.dropWhile (· != '/')).reverse ⊆ path := by
    intro c member
    exact List.mem_reverse.1 ((List.dropWhile_sublist _).subset (List.mem_reverse.1 member))
  unfold Path.directory
  dsimp only
  split
  next => exact head
  next =>
    intro c member
    exact head (List.mem_reverse.1 ((List.dropWhile_sublist _).subset (List.mem_reverse.1 member)))

theorem prefix_componentsOf_directory (path : Text) :
    componentsOf (Path.directory path) <+: componentsOf path := by
  obtain ⟨front, name, rfl, ends, whole⟩ := exists_front path
  rw [componentsOf_directory ends whole, componentsOf_front ends]
  exact List.prefix_append _ _

-- The way to a file below a directory is that of the directory and then the directories between.
theorem componentsOf_directory_joinTexts (base : Text) {name : Text}
    (plain : ∀ component ∈ components ++ [name], IsPlain component) :
    componentsOf (Path.directory (Path.joinTexts base (join ['/'] (components ++ [name])))) =
      componentsOf base ++ components := by
  have whole := (plain name (by simp)).whole
  have inner : ∀ component ∈ components, IsPlain component :=
    fun component member => plain component (List.mem_append_left _ member)
  rw [joinTexts_eq base plain]
  by_cases direct : components = []
  next =>
    subst direct
    rw [List.nil_append, join, componentsOf_directory (opened_ends base) whole]
    rw [componentsOf_opened, List.append_nil]
  next =>
    have front : opened base ++ join ['/'] (components ++ [name]) =
        (opened base ++ join ['/'] components ++ ['/']) ++ name := by
      rw [join_append_singleton _ _ direct]
      simp
    rw [front, componentsOf_directory (.inr ⟨_, rfl⟩) whole, componentsOf_append_cons,
      componentsOf_front (opened_ends base), componentsOf_opened, componentsOf_join inner,
      componentsOf_nil, List.append_nil]

theorem length_encode_join_le {way : List Text} (sublist : way.Sublist (componentsOf base)) :
    (Utf8.encode (join ['/'] way)).length ≤ (Utf8.encode base).length := by
  have parts : way.Sublist (splitAt '/' base) := sublist.trans List.filter_sublist
  simpa [Utf8.encode, join_splitAt] using length_flatMap_join_le String.utf8EncodeChar ['/'] parts

end Below

end Workspace
end Inlay
