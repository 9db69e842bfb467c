import Inlay.Text.Character
import Mathlib.Algebra.Group.Nat.Defs

set_option autoImplicit false

namespace Inlay.Text

variable {c : Char} {text : Text} {values : List Nat}

def digitValue (c : Char) : Nat :=
  (digit? c).getD 0

theorem digit?_of_isDigit (digit : isDigit c = true) : digit? c = some (digitValue c) := by
  obtain ⟨value, found⟩ := Option.isSome_iff_exists.1 digit
  rw [digitValue, found]
  rfl

theorem exists_zero_of_isDigit (digit : isDigit c = true) :
    ∃ start ∈ zeros, start ≤ c.toNat ∧ c.toNat ≤ start + 9 ∧ digitValue c = c.toNat - start := by
  have found := digit?_of_isDigit digit
  rw [digit?, Option.map_eq_some_iff] at found
  obtain ⟨start, first, same⟩ := found
  have inside := List.find?_some first
  simp only [Bool.and_eq_true, decide_eq_true_eq] at inside
  exact ⟨start, List.mem_of_find?_eq_some first, inside.1, inside.2, same.symm⟩

theorem digitValue_le (digit : isDigit c = true) : digitValue c ≤ 9 := by
  obtain ⟨start, -, low, high, same⟩ := exists_zero_of_isDigit digit
  omega

-- A range of code points is apart from the digits if it ends before or begins behind each script's.
theorem apart_of_isDigit {first last : Nat}
    (apart : ∀ start ∈ zeros, last < start ∨ start + 9 < first) (digit : isDigit c = true) :
    ¬ (first ≤ c.toNat ∧ c.toNat ≤ last) := by
  obtain ⟨start, member, low, high, -⟩ := exists_zero_of_isDigit digit
  have := apart start member
  omega

theorem isBlank_of_isDigit (digit : isDigit c = true) : isBlank c = false := by
  rw [Bool.eq_false_iff]
  intro blank
  obtain ⟨range, member, low, high⟩ := Charset.exists_range_of_hasCode blank
  have apart : ∀ range ∈ blanks, ∀ start ∈ zeros, range.2 < start ∨ start + 9 < range.1 := by
    decide
  exact apart_of_isDigit (apart range member) digit ⟨low, high⟩

theorem lowerBetween_of_isDigit (digit : isDigit c = true) (before after : Text) :
    lowerBetween before c after = [c] := by
  have other : c ≠ capitalSigma := by
    rintro rfl
    exact absurd digit (by decide)
  have short : lowerExpansions.lookup c.toNat = none := by
    rw [List.lookup_eq_none_iff]
    intro entry member
    have apart : ∀ entry ∈ lowerExpansions, ∀ start ∈ zeros,
        entry.1 < start ∨ start + 9 < entry.1 := by decide
    rw [bne_iff_ne]
    intro same
    exact apart_of_isDigit (apart entry member) digit ⟨Nat.le_of_eq same.symm, Nat.le_of_eq same⟩
  have still : lowerRuns.find? (·.has c.toNat) = none := by
    rw [List.find?_eq_none]
    intro run member inside
    have apart : (lowerRuns.all fun run => zeros.all fun start =>
        Nat.blt run.last start || Nat.blt (start + 9) run.first) = true := by decide +kernel
    simp only [List.all_eq_true, Bool.or_eq_true, Nat.blt_eq] at apart
    simp only [CaseRun.has, Bool.and_eq_true, decide_eq_true_eq] at inside
    exact apart_of_isDigit (apart run member) digit inside.1
  rw [lowerBetween, if_neg other, mapCase, short, still]

theorem mem_lowerFrom_of_isDigit (digit : isDigit c = true) (member : c ∈ text) (before : Text) :
    c ∈ lowerFrom before text := by
  induction text generalizing before with
  | nil => cases member
  | cons d text ih =>
    rw [lowerFrom, List.mem_append]
    rcases List.mem_cons.1 member with rfl | later
    next => exact .inl (by rw [lowerBetween_of_isDigit digit]; exact List.mem_singleton_self _)
    next => exact .inr (ih later (d :: before))

theorem mem_lower_of_isDigit (digit : isDigit c = true) (member : c ∈ text) : c ∈ lower text :=
  mem_lowerFrom_of_isDigit digit member []

section Number

variable {base : Nat}

theorem ofDigitValues_lt (small : ∀ value ∈ values, value < base) :
    ofDigitValues base values < base ^ values.length := by
  -- The digits read so far make a number that is one short of the next one at most.
  have step (total : Nat) : values.foldl (fun total value => total * base + value) total <
      (total + 1) * base ^ values.length := by
    induction values generalizing total with
    | nil => simp
    | cons value values ih =>
      obtain ⟨first, later⟩ := List.forall_mem_cons.1 small
      refine Nat.lt_of_lt_of_le (ih later (total * base + value)) ?_
      rw [List.length_cons, Nat.pow_succ', ← Nat.mul_assoc]
      refine Nat.mul_le_mul_right _ ?_
      rw [Nat.add_mul, Nat.one_mul]
      omega
  simpa [ofDigitValues] using step 0

theorem digit?_of_ascii (digit : c.isDigit = true) : digit? c = some (c.toNat - '0'.toNat) := by
  have bounds : 48 ≤ c.toNat ∧ c.toNat ≤ 57 := by
    simp only [Char.isDigit, Bool.and_eq_true, decide_eq_true_eq] at digit
    exact digit
  have first : zeros.find? (fun start => decide (start <= c.toNat) && decide (c.toNat <= start + 9))
      = some 48 := by
    rw [zeros, List.find?_cons_of_pos]
    simp [bounds]
  rw [digit?, first]
  rfl

theorem isDigit_of_mem_ofNat {n : Nat} (member : c ∈ ofNat n) : c.isDigit = true :=
  Nat.isDigit_of_mem_toDigits (by decide) (by decide) member

theorem ofDigitValues_ofNat (n : Nat) : ofDigitValues 10 ((ofNat n).map digitValue) = n := by
  have same : ∀ c ∈ ofNat n, digitValue c = c.toNat - '0'.toNat := by
    intro c member
    rw [digitValue, digit?_of_ascii (isDigit_of_mem_ofNat member)]
    rfl
  rw [List.map_congr_left same, ofDigitValues, List.foldl_map]
  have read := Nat.ofDigitChars_ten_toDigits (n := n)
  rw [Nat.ofDigitChars_eq_foldl] at read
  simpa only [ofNat, Nat.mul_comm] using read

end Number

end Inlay.Text
