import Inlay.Text.Basic
import Mathlib.Data.List.Basic

set_option autoImplicit false

namespace Inlay.Text

variable {separator : Char} {text part : Text} {parts : List Text}

theorem splitAt_ne_nil (separator : Char) (text : Text) : splitAt separator text ≠ [] := by
  cases text with
  | nil => simp [splitAt]
  | cons c text =>
    unfold splitAt
    split
    next => simp
    next => cases splitAt separator text <;> simp [consHead]

theorem consHead_append (c : Char) {first : List Text} (nonempty : first ≠ [])
    (second : List Text) : consHead c (first ++ second) = consHead c first ++ second := by
  cases first with
  | nil => exact absurd rfl nonempty
  | cons part first => rfl

theorem splitAt_append_cons (separator : Char) (first second : Text) :
    splitAt separator (first ++ separator :: second) =
      splitAt separator first ++ splitAt separator second := by
  induction first with
  | nil => simp [splitAt]
  | cons c first ih =>
    by_cases ends : c = separator
    next => simp [splitAt, ends, ih]
    next => simp [splitAt, ends, ih, consHead_append c (splitAt_ne_nil separator first)]

theorem splitAt_of_not_mem (absent : separator ∉ text) : splitAt separator text = [text] := by
  induction text with
  | nil => rfl
  | cons c text ih =>
    simp only [List.mem_cons, not_or] at absent
    simp [splitAt, Ne.symm absent.1, ih absent.2, consHead]

theorem not_mem_of_mem_splitAt (member : part ∈ splitAt separator text) : separator ∉ part := by
  induction text generalizing part with
  | nil =>
    rw [splitAt, List.mem_singleton] at member
    simp [member]
  | cons c text ih =>
    unfold splitAt at member
    split at member
    next =>
      rcases List.mem_cons.1 member with rfl | later
      next => simp
      next => exact ih later
    next apart =>
      cases split : splitAt separator text with
      | nil => exact absurd split (splitAt_ne_nil separator text)
      | cons first rest =>
        rw [split] at member ih
        rcases List.mem_cons.1 member with rfl | later
        next => simpa [Ne.symm apart] using ih (List.mem_cons_self)
        next => exact ih (List.mem_cons_of_mem _ later)

theorem subset_of_mem_splitAt (member : part ∈ splitAt separator text) : part ⊆ text := by
  induction text generalizing part with
  | nil =>
    rw [splitAt, List.mem_singleton] at member
    simp [member]
  | cons c text ih =>
    unfold splitAt at member
    split at member
    next =>
      rcases List.mem_cons.1 member with rfl | later
      next => simp
      next => exact List.subset_cons_of_subset c (ih later)
    next =>
      cases split : splitAt separator text with
      | nil => exact absurd split (splitAt_ne_nil separator text)
      | cons first rest =>
        rw [split] at member ih
        rcases List.mem_cons.1 member with rfl | later
        next => exact List.cons_subset_cons c (ih List.mem_cons_self)
        next => exact List.subset_cons_of_subset c (ih (List.mem_cons_of_mem _ later))

theorem join_cons (separator part : Text) {parts : List Text} (nonempty : parts ≠ []) :
    join separator (part :: parts) = part ++ separator ++ join separator parts := by
  cases parts with
  | nil => exact absurd rfl nonempty
  | cons other parts => rfl

theorem join_append_singleton (separator last : Text) {parts : List Text} (nonempty : parts ≠ []) :
    join separator (parts ++ [last]) = join separator parts ++ separator ++ last := by
  induction parts with
  | nil => exact absurd rfl nonempty
  | cons part parts ih =>
    cases parts with
    | nil => simp [join]
    | cons other parts =>
      rw [List.cons_append, join_cons separator part (by simp), ih (by simp),
        join_cons separator part (by simp)]
      simp

theorem splitAt_join (nonempty : parts ≠ []) (whole : ∀ part ∈ parts, separator ∉ part) :
    splitAt separator (join [separator] parts) = parts := by
  induction parts with
  | nil => exact absurd rfl nonempty
  | cons part parts ih =>
    have here := splitAt_of_not_mem (whole part List.mem_cons_self)
    cases parts with
    | nil => exact here
    | cons other parts =>
      have later := ih (by simp) fun part member => whole part (List.mem_cons_of_mem _ member)
      rw [join_cons _ part (by simp), List.append_assoc, List.singleton_append,
        splitAt_append_cons, here, later]
      rfl

theorem join_splitAt (separator : Char) (text : Text) :
    join [separator] (splitAt separator text) = text := by
  induction text with
  | nil => rfl
  | cons c text ih =>
    by_cases ends : c = separator
    next => simp [splitAt, ends, join_cons _ _ (splitAt_ne_nil separator text), ih]
    next =>
      cases split : splitAt separator text with
      | nil => exact absurd split (splitAt_ne_nil separator text)
      | cons first rest =>
        rw [split] at ih
        rw [splitAt, if_neg ends, split, consHead]
        cases rest with
        | nil => simpa [join] using ih
        | cons other rest => simpa [join] using ih

theorem exists_mem_of_mem_join {c : Char} (member : c ∈ join [separator] parts) :
    c = separator ∨ ∃ part ∈ parts, c ∈ part := by
  induction parts with
  | nil => cases member
  | cons part parts ih =>
    by_cases alone : parts = []
    next =>
      subst alone
      exact .inr ⟨part, List.mem_cons_self, member⟩
    next =>
      rw [join_cons _ _ alone, List.mem_append, List.mem_append, List.mem_singleton] at member
      rcases member with (here | same) | later
      next => exact .inr ⟨part, List.mem_cons_self, here⟩
      next => exact .inl same
      next =>
        refine (ih later).imp id ?_
        rintro ⟨other, among, inside⟩
        exact ⟨other, List.mem_cons_of_mem _ among, inside⟩

theorem subset_join (separator : Text) (member : part ∈ parts) : part ⊆ join separator parts := by
  induction parts with
  | nil => cases member
  | cons first parts ih =>
    by_cases alone : parts = []
    next =>
      subst alone
      rw [List.mem_singleton.1 member]
      exact List.Subset.refl _
    next =>
      rw [join_cons _ _ alone]
      rcases List.mem_cons.1 member with rfl | later
      next => exact fun c inside => List.mem_append_left _ (List.mem_append_left _ inside)
      next => exact fun c inside => List.mem_append_right _ (ih later inside)

theorem prefix_join (separator : Text) {first second : List Text} (front : first <+: second) :
    join separator first <+: join separator second := by
  induction first generalizing second with
  | nil => exact List.nil_prefix
  | cons text first ih =>
    obtain ⟨rest, rfl⟩ := front
    by_cases alone : first = []
    next =>
      subst alone
      cases rest with
      | nil => exact List.prefix_refl _
      | cons other rest => exact ⟨separator ++ join separator (other :: rest), by simp [join]⟩
    next =>
      rw [List.cons_append, join_cons _ _ alone, join_cons _ _ (by simp [alone]),
        List.prefix_append_right_inj]
      exact ih (List.prefix_append _ _)

theorem length_flatMap_join_le {A : Type} (bytes : Char → List A) (separator : Text)
    {fewer parts : List Text} (sublist : fewer.Sublist parts) :
    ((join separator fewer).flatMap bytes).length ≤ ((join separator parts).flatMap bytes).length := by
  induction sublist with
  | slnil => simp
  | @cons fewer parts part sublist ih =>
    cases parts with
    | nil => simp [List.sublist_nil.1 sublist, join]
    | cons other parts =>
      simp only [join_cons _ _ (List.cons_ne_nil _ _), List.flatMap_append, List.length_append]
      omega
  | @cons_cons fewer parts part sublist ih =>
    cases fewer with
    | nil =>
      cases parts with
      | nil => simp
      | cons other parts =>
        simp only [List.flatMap_append, List.length_append, join]
        omega
    | cons first fewer =>
      have nonempty : parts ≠ [] := by
        rintro rfl
        cases sublist
      simp only [join_cons _ _ (List.cons_ne_nil _ _), join_cons _ _ nonempty, List.flatMap_append,
        List.length_append]
      omega

theorem join_injective {first second : List Text} (some_first : first ≠ [])
    (some_second : second ≠ []) (whole : ∀ part ∈ first, separator ∉ part)
    (whole' : ∀ part ∈ second, separator ∉ part)
    (same : join [separator] first = join [separator] second) : first = second := by
  rw [← splitAt_join some_first whole, same, splitAt_join some_second whole']

end Inlay.Text
