import Inlay.Text.Basic
import Mathlib.Data.List.Infix

set_option autoImplicit false

namespace Inlay.Text

theorem after?_eq_none_iff {mark text : Text} : after? mark text = none ↔ ¬ mark <+: text := by
  constructor
  next =>
    rintro missing ⟨rest, rfl⟩
    simp at missing
  next =>
    intro apart
    cases found : after? mark text with
    | none => rfl
    | some rest => exact absurd ⟨rest, (after?_eq_some_iff.1 found).symm⟩ apart

theorem cut?_eq_none_iff {mark text : Text} : cut? mark text = none ↔ ¬ mark <:+: text := by
  induction text with
  | nil => simp [cut?, after?_eq_none_iff]
  | cons c text ih =>
    rw [List.infix_cons_iff, not_or, ← after?_eq_none_iff, ← ih]
    cases begun : after? mark (c :: text) with
    | none => simp [cut?, begun]
    | some rest => simp [cut?, begun]

theorem cut?_of_after? {mark text rest : Text} (nonempty : mark ≠ [])
    (begun : after? mark text = some rest) : cut? mark text = some ([], rest) := by
  cases text with
  | nil =>
    have same := after?_eq_some_iff.1 begun
    exact absurd (List.append_eq_nil_iff.1 same.symm).1 nonempty
  | cons c text => simp [cut?, begun]

theorem cut?_cons {mark text : Text} {c : Char} (apart : ¬ mark <+: c :: text) :
    cut? mark (c :: text) = (cut? mark text).map fun (before, rest) => (c :: before, rest) := by
  simp [cut?, after?_eq_none_iff.2 apart]

-- The part before a cut is free of the mark.
theorem not_infix_of_cut? {mark text before rest : Text} (nonempty : mark ≠ [])
    (found : cut? mark text = some (before, rest)) : ¬ mark <:+: before := by
  induction text generalizing before with
  | nil =>
    simp only [cut?, Option.map_eq_some_iff, Prod.mk.injEq] at found
    obtain ⟨_, _, rfl, _⟩ := found
    simpa using nonempty
  | cons c text ih =>
    by_cases begun : mark <+: c :: text
    next =>
      obtain ⟨behind, same⟩ := begun
      rw [cut?_of_after? nonempty (after?_eq_some_iff.2 same.symm)] at found
      cases found
      simpa using nonempty
    next =>
      have whole := eq_of_cut? found
      rw [cut?_cons begun] at found
      simp only [Option.map_eq_some_iff, Prod.mk.injEq, Prod.exists] at found
      obtain ⟨inner, _, cut, rfl, rfl⟩ := found
      rw [List.infix_cons_iff, not_or]
      refine ⟨?_, ih cut⟩
      -- A mark at the front of the part before the cut would be at the front of the text.
      intro front
      exact begun (whole ▸ (front.trans (by simp)))

theorem prefix_of_prefix_append_cons {m : Char} {mark rest : Text} (before : Text)
    (apart : m ∉ mark)
    (front : mark <+: before ++ m :: rest) : mark <+: before := by
  have through : before ++ [m] <+: before ++ m :: rest := by simp
  rcases List.prefix_or_prefix_of_prefix front through with short | long
  next =>
    rcases List.prefix_concat_iff.1 short with rfl | short
    next => simp at apart
    next => exact short
  next => exact absurd (long.subset (by simp)) apart

theorem infix_or_infix_of_append_cons {c : Char} {mark first second : Text} (apart : c ∉ mark)
    (inside : mark <:+: first ++ c :: second) : mark <:+: first ∨ mark <:+: second := by
  induction first with
  | nil =>
    rcases List.infix_cons_iff.1 inside with front | behind
    next => exact .inl (prefix_of_prefix_append_cons [] apart front).isInfix
    next => exact .inr behind
  | cons d first ih =>
    rw [List.cons_append] at inside
    rcases List.infix_cons_iff.1 inside with front | behind
    next => exact .inl (prefix_of_prefix_append_cons (d :: first) apart front).isInfix
    next => exact (ih behind).imp_left fun inner => List.infix_cons_iff.2 (.inr inner)

-- A mark that began in `before` and ended behind it would begin again with its first character.
theorem cons_prefix_of_append_cons {m c : Char} {mark before rest : Text} (apart : m ∉ mark)
    (front : (m :: mark) <+: c :: (before ++ m :: rest)) : (m :: mark) <+: c :: before := by
  obtain ⟨rfl, behind⟩ := List.cons_prefix_cons.1 front
  exact List.cons_prefix_cons.2 ⟨rfl, prefix_of_prefix_append_cons before apart behind⟩

theorem cut?_append {m : Char} {mark before : Text} (rest : Text) (apart : m ∉ mark)
    (absent : ¬ (m :: mark) <:+: before) :
    cut? (m :: mark) (before ++ (m :: mark ++ rest)) = some (before, rest) := by
  induction before with
  | nil => exact cut?_of_after? (by simp) (after?_append _ _)
  | cons c before ih =>
    rw [List.infix_cons_iff, not_or] at absent
    have late : ¬ (m :: mark) <+: c :: (before ++ (m :: mark ++ rest)) := by
      intro front
      exact absent.1 (cons_prefix_of_append_cons apart front)
    rw [List.cons_append, cut?_cons late, ih absent.2]
    rfl

-- The first of several equal characters stands at or before any given one of them.
theorem cut?_of_mem (m : Char) (before rest : Text) :
    ∃ front behind, cut? [m] (before ++ m :: rest) = some (front, behind) ∧ rest <:+ behind := by
  induction before with
  | nil => exact ⟨[], rest, cut?_of_after? (by simp) (by simp [after?]), List.suffix_rfl⟩
  | cons c before ih =>
    by_cases same : m = c
    next =>
      refine ⟨[], before ++ m :: rest, cut?_of_after? (by simp) (by simp [after?, same]), ?_⟩
      exact (List.suffix_cons m rest).trans (List.suffix_append before _)
    next =>
      obtain ⟨front, behind, found, suffix⟩ := ih
      have late : ¬ [m] <+: c :: (before ++ m :: rest) := by simp [List.cons_prefix_cons, same]
      exact ⟨c :: front, behind, by rw [List.cons_append, cut?_cons late, found]; rfl, suffix⟩

theorem takeWhile_append_cons {c : Char} {text : Text} (absent : c ∉ text) (rest : Text) :
    (text ++ c :: rest).takeWhile (· != c) = text := by
  have inside : ∀ d ∈ text, (d != c) = true := by
    intro d member
    simpa using ne_of_mem_of_not_mem member absent
  rw [List.takeWhile_append_of_pos inside]
  simp

theorem dropWhile_append_cons {c : Char} {text : Text} (absent : c ∉ text) (rest : Text) :
    (text ++ c :: rest).dropWhile (· != c) = c :: rest := by
  have whole := List.takeWhile_append_dropWhile (p := (· != c)) (l := text ++ c :: rest)
  rw [takeWhile_append_cons absent] at whole
  exact List.append_cancel_left whole

theorem upTo?_eq_some_iff {suffix text rest : Text} :
    upTo? suffix text = some rest ↔ text = rest ++ suffix := by
  rw [upTo?, Option.map_eq_some_iff]
  constructor
  next =>
    rintro ⟨back, found, rfl⟩
    simpa using congrArg List.reverse (after?_eq_some_iff.1 found)
  next =>
    rintro rfl
    exact ⟨rest.reverse, after?_eq_some_iff.2 (by simp), by simp⟩

end Inlay.Text
