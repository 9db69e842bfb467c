import Inlay.Text.Basic
import Mathlib.Data.List.Nodup

set_option autoImplicit false

namespace Inlay.Text

theorem le_cons (c d : Char) (a b : Text) :
    le (c :: a) (d :: b) = if c = d then le a b else decide (c.toNat ≤ d.toNat) := rfl

theorem le_nil (a : Text) : le [] a = true := by
  cases a <;> rfl

theorem toNat_ne {c d : Char} (apart : c ≠ d) : c.toNat ≠ d.toNat :=
  fun same => apart (Char.toNat_inj.1 same)

theorem le_total (a b : Text) : le a b = true ∨ le b a = true := by
  induction a generalizing b with
  | nil => exact .inl (le_nil b)
  | cons c a ih =>
    cases b with
    | nil => exact .inr (le_nil (c :: a))
    | cons d b =>
      rw [le_cons, le_cons]
      by_cases same : c = d
      next => simpa [same] using ih b
      next =>
        simp only [same, Ne.symm same, if_false, decide_eq_true_eq]
        omega

theorem le_trans {a b c : Text} (first : le a b = true) (second : le b c = true) :
    le a c = true := by
  induction a generalizing b c with
  | nil => exact le_nil c
  | cons x a ih =>
    cases b with
    | nil => cases first
    | cons y b =>
      cases c with
      | nil => cases second
      | cons z c =>
        rw [le_cons] at first second ⊢
        by_cases left : x = y
        next =>
          subst left
          by_cases right : x = z
          next =>
            simp only [right, if_true] at first second ⊢
            exact ih first second
          next => simpa [right] using second
        next =>
          have below := toNat_ne left
          simp only [left, if_false, decide_eq_true_eq] at first
          by_cases right : y = z
          next =>
            subst right
            simpa [left] using first
          next =>
            simp only [right, if_false, decide_eq_true_eq] at second
            have apart : x ≠ z := by
              rintro rfl
              omega
            simp only [apart, if_false, decide_eq_true_eq]
            omega

theorem le_antisymm {a b : Text} (first : le a b = true) (second : le b a = true) : a = b := by
  induction a generalizing b with
  | nil =>
    cases b with
    | nil => rfl
    | cons => cases second
  | cons c a ih =>
    cases b with
    | nil => cases first
    | cons d b =>
      rw [le_cons] at first second
      by_cases same : c = d
      next =>
        subst same
        rw [ih (by simpa using first) (by simpa using second)]
      next =>
        have apart := toNat_ne same
        simp only [same, Ne.symm same, if_false, decide_eq_true_eq] at first second
        omega

-- Comes before by code point.
def Precedes (first second : Text) : Prop :=
  le first second = true ∧ first ≠ second

instance : Std.Irrefl Precedes where
  irrefl _ below := below.2 rfl

instance : Std.Antisymm Precedes where
  antisymm _ _ first second := le_antisymm first.1 second.1

theorem nodup_eraseDups (texts : List Text) : texts.eraseDups.Nodup := by
  induction length : texts.length using Nat.strongRecOn generalizing texts with
  | ind n ih =>
    cases texts with
    | nil => simp
    | cons text texts =>
      have shorter : (texts.filter fun other => !other == text).length < n := by
        have := List.length_filter_le (fun other => !other == text) texts
        simp only [List.length_cons] at length
        omega
      rw [List.eraseDups_cons, List.nodup_cons]
      exact ⟨by simp, ih _ shorter _ rfl⟩

theorem mem_sortedSet {name : Text} {texts : List Text} :
    name ∈ sortedSet texts ↔ name ∈ texts := by
  simp [sortedSet, sort]

theorem pairwise_sortedSet (texts : List Text) : (sortedSet texts).Pairwise Precedes := by
  have ordered : (sortedSet texts).Pairwise fun a b => le a b = true := by
    apply List.pairwise_mergeSort
    next => exact fun a b c first second => le_trans first second
    next =>
      intro a b
      rw [Bool.or_eq_true]
      exact le_total a b
  have distinct : (sortedSet texts).Nodup :=
    (List.mergeSort_perm texts.eraseDups le).nodup_iff.2 (nodup_eraseDups texts)
  exact ordered.and distinct

end Inlay.Text
