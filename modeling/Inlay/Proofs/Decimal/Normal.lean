import Inlay.Decimal.Reading
import Mathlib.Tactic.Ring
import Mathlib.Tactic.Positivity

set_option autoImplicit false

namespace Inlay

namespace Double

-- The mantissa has 53 bits, or fewer at the least exponent.
def IsNormal : Double → Prop
  | finite _ mantissa exponent => mantissa < 2 * mantissaUnit ∧ leastExponent ≤ exponent ∧
      (mantissaUnit ≤ mantissa ∨ exponent = leastExponent)
  | _ => True

theorem isNormal_finite_iff {negative : Bool} {mantissa : Nat} {exponent : Int} :
    (finite negative mantissa exponent).IsNormal ↔ mantissa < 2 * mantissaUnit ∧
      leastExponent ≤ exponent ∧ (mantissaUnit ≤ mantissa ∨ exponent = leastExponent) := Iff.rfl

instance (number : Double) : Decidable number.IsNormal :=
  match number with
  | finite _ _ _ => inferInstanceAs (Decidable (_ ∧ _ ∧ _))
  | nan _ => isTrue trivial
  | infinite _ => isTrue trivial

theorem mantissaUnit_pos : 0 < mantissaUnit := by decide

theorem isNormal_zero (negative : Bool) : (finite negative 0 leastExponent).IsNormal :=
  ⟨Nat.mul_pos Nat.two_pos mantissaUnit_pos, le_rfl, .inr rfl⟩

variable {x y : Double} {negative : Bool} {mantissa : Nat} {exponent : Int} {whole whole' : Int}

section Values

theorem eq_of_mul_two_pow_eq {m n k l : Nat} (small : m < 2 * mantissaUnit)
    (small' : n < 2 * mantissaUnit) (full : mantissaUnit ≤ m ∨ k = 0)
    (full' : mantissaUnit ≤ n ∨ l = 0) (same : m * 2 ^ k = n * 2 ^ l) : m = n ∧ k = l := by
  -- Of two different exponents the greater one makes the mantissa before it too large.
  have apart {m n k gap : Nat} (small : m < 2 * mantissaUnit) (full : mantissaUnit ≤ n) :
      m * 2 ^ k ≠ n * 2 ^ (k + (gap + 1)) := by
    intro same
    rw [pow_add, pow_succ, mul_left_comm, mul_comm, mul_left_cancel_iff_of_pos (by positivity)] at same
    have atLeast : n * 2 ≤ n * (2 ^ gap * 2) :=
      Nat.mul_le_mul_left n (Nat.le_mul_of_pos_left 2 (by positivity))
    omega
  rcases Nat.lt_trichotomy k l with less | rfl | more
  next =>
    obtain ⟨gap, rfl⟩ := Nat.exists_eq_add_of_lt less
    exact absurd same (apart small (full'.resolve_right (by omega)))
  next => exact ⟨Nat.eq_of_mul_eq_mul_right (by positivity) same, rfl⟩
  next =>
    obtain ⟨gap, rfl⟩ := Nat.exists_eq_add_of_lt more
    exact absurd same.symm (apart small' (full.resolve_right (by omega)))

theorem toRatio_pos (mantissa : Nat) (exponent : Int) : 0 < (toRatio mantissa exponent).2 := by
  unfold toRatio
  split
  next => exact Nat.one_pos
  next => exact Nat.pow_pos Nat.two_pos

theorem toRatio_eq_zero_iff (mantissa : Nat) (exponent : Int) :
    (toRatio mantissa exponent).1 = 0 ↔ mantissa = 0 := by
  unfold toRatio
  split <;> simp

theorem toRatio_mul_two_pow (mantissa : Nat) {shift : Nat} (lifted : 0 ≤ exponent + shift) :
    (toRatio mantissa exponent).1 * 2 ^ shift =
      mantissa * 2 ^ (exponent + shift).toNat * (toRatio mantissa exponent).2 := by
  unfold toRatio
  split
  next =>
    have split : (exponent + shift).toNat = exponent.toNat + shift := by omega
    rw [split, pow_add]
    simp only [Nat.pow_eq]
    ring
  next =>
    have split : shift = (exponent + shift).toNat + (-exponent).toNat := by omega
    conv_lhs => rw [split, pow_add]
    simp only [Nat.pow_eq]
    ring

theorem isInt_finite_iff : (finite negative mantissa exponent).isInt whole = true ↔
    signed negative (toRatio mantissa exponent).1 = whole * (toRatio mantissa exponent).2 := by
  simp only [isInt, signed, decide_eq_true_eq]

theorem exists_finite_of_isInt (isWhole : x.isInt whole = true) :
    ∃ negative mantissa exponent, x = finite negative mantissa exponent := by
  cases x with
  | finite negative mantissa exponent => exact ⟨negative, mantissa, exponent, rfl⟩
  | _ => cases isWhole

theorem eq_of_isInt (isWhole : x.isInt whole = true) (isWhole' : x.isInt whole' = true) :
    whole = whole' := by
  obtain ⟨negative, mantissa, exponent, rfl⟩ := exists_finite_of_isInt isWhole
  have positive : (0 : Int) < (toRatio mantissa exponent).2 :=
    Int.natCast_pos.2 (toRatio_pos mantissa exponent)
  exact Int.eq_of_mul_eq_mul_right positive.ne'
    ((isInt_finite_iff.1 isWhole).symm.trans (isInt_finite_iff.1 isWhole'))

theorem isInt_zero : (finite negative 0 exponent).isInt 0 = true := by
  rw [isInt_finite_iff, (toRatio_eq_zero_iff 0 exponent).2 rfl]
  cases negative <;> simp [signed]

theorem natAbs_signed (negative : Bool) (n : Nat) : (signed negative n).natAbs = n := by
  cases negative <;> simp [signed]

theorem mul_two_pow_of_isInt (shift : Nat) (lifted : 0 ≤ exponent + shift)
    (isWhole : (finite negative mantissa exponent).isInt whole = true) :
    mantissa * 2 ^ (exponent + shift).toNat = whole.natAbs * 2 ^ shift := by
  have ratio := toRatio_mul_two_pow mantissa lifted
  have size : (toRatio mantissa exponent).1 = whole.natAbs * (toRatio mantissa exponent).2 := by
    have sizes := congrArg Int.natAbs (isInt_finite_iff.1 isWhole)
    rwa [natAbs_signed, Int.natAbs_mul, Int.natAbs_natCast] at sizes
  rw [size, mul_right_comm] at ratio
  exact (Nat.eq_of_mul_eq_mul_right (toRatio_pos mantissa exponent) ratio).symm

theorem same_of_isInt (normal : x.IsNormal) (normal' : y.IsNormal) (isWhole : x.isInt whole = true)
    (isWhole' : y.isInt whole = true) : x.same y = true := by
  obtain ⟨negative, m, k, rfl⟩ := exists_finite_of_isInt isWhole
  obtain ⟨negative', n, l, rfl⟩ := exists_finite_of_isInt isWhole'
  obtain ⟨shift, least⟩ : ∃ shift : Nat, leastExponent = -(shift : Int) := ⟨1074, rfl⟩
  obtain ⟨small, above, full⟩ := normal
  obtain ⟨small', above', full'⟩ := normal'
  rw [least] at above above' full full'
  have value := mul_two_pow_of_isInt shift (by omega) isWhole
  have value' := mul_two_pow_of_isInt shift (by omega) isWhole'
  obtain ⟨rfl, exponents⟩ := eq_of_mul_two_pow_eq small small' (full.imp_right (by omega))
    (full'.imp_right (by omega)) (value.trans value'.symm)
  obtain rfl : k = l := by omega
  have signs := (isInt_finite_iff.1 isWhole).trans (isInt_finite_iff.1 isWhole').symm
  have either : negative = negative' ∨ m = 0 := by
    rw [← toRatio_eq_zero_iff m k]
    cases negative <;> cases negative' <;> simp [signed] at signs ⊢ <;> omega
  rcases either with rfl | rfl <;> simp [same]

theorem eq_or_isInt_zero_of_same (one : x.same y = true) :
    x = y ∨ x.isInt 0 = true ∧ y.isInt 0 = true := by
  cases x with
  | nan place => cases y <;> simp_all [same]
  | infinite negative => cases y <;> simp_all [same]
  | finite negative m k =>
    cases y with
    | finite negative' n l =>
      simp only [same, Bool.and_eq_true, beq_iff_eq, Bool.or_eq_true] at one
      obtain ⟨⟨rfl, rfl⟩, rfl | rfl⟩ := one
      next => exact .inl rfl
      next => exact .inr ⟨isInt_zero, isInt_zero⟩
    | _ => cases one

end Values

section Rounding

variable {num den size : Nat} {power : Int}

def Below (num den size : Nat) (power : Int) : Prop :=
  (scale num den power).1 < (scale num den power).2 * size

theorem scale_pos (num : Nat) (positive : 0 < den) (power : Int) : 0 < (scale num den power).2 := by
  unfold scale
  split
  next => exact Nat.mul_pos positive (Nat.pow_pos Nat.two_pos)
  next => exact positive

theorem below_iff (shift : Nat) (lifted : 0 ≤ power + shift) :
    Below num den size power ↔ num * 2 ^ shift < den * size * 2 ^ (power + shift).toNat := by
  unfold Below scale
  split
  next =>
    have split : (power + shift).toNat = power.toNat + shift := by omega
    rw [split, pow_add, ← mul_assoc, Nat.mul_lt_mul_right (by positivity), mul_right_comm]
    rfl
  next =>
    have split : shift = (power + shift).toNat + (-power).toNat := by omega
    conv_rhs => lhs; rw [split, pow_add, mul_left_comm, mul_comm]
    rw [Nat.mul_lt_mul_right (by positivity)]
    rfl

theorem Below.mono {power' : Int} (below : Below num den size power)
    (le : power ≤ power') : Below num den size power' := by
  have lifted : 0 ≤ power + (-power).toNat := by omega
  rw [below_iff _ lifted] at below
  rw [below_iff (-power).toNat (by omega)]
  exact below.trans_le (Nat.mul_le_mul_left _ (Nat.pow_le_pow_right Nat.two_pos (by omega)))

theorem below_double_iff :
    Below num den (2 * size) (power - 1) ↔ Below num den size power := by
  have lifted : 0 ≤ power + ((1 - power).toNat : Int) := by omega
  have split : (power + ((1 - power).toNat : Int)).toNat =
      (power - 1 + ((1 - power).toNat : Int)).toNat + 1 := by omega
  rw [below_iff _ lifted, below_iff (1 - power).toNat (by omega), split, pow_succ]
  ring_nf

-- The first guess at an exponent is the right one or one too large.
theorem below_guess (numPositive : 0 < num) (denPositive : 0 < den) {guess : Int}
    (guessed : guess = (Nat.log2 num : Int) - (Nat.log2 den : Int) - 52) :
    Below num den (2 * mantissaUnit) guess ∧ ¬ Below num den mantissaUnit (guess - 1) := by
  obtain ⟨shift, large⟩ : ∃ shift : Nat, 0 ≤ guess - 1 + shift := ⟨(1 - guess).toNat, by omega⟩
  have unit : mantissaUnit = 2 ^ 52 := rfl
  have numLow := Nat.log2_self_le numPositive.ne'
  have numHigh := Nat.lt_log2_self (n := num)
  have denLow := Nat.log2_self_le denPositive.ne'
  have denHigh := Nat.lt_log2_self (n := den)
  rw [below_iff shift (by omega), below_iff shift large, not_lt, unit]
  constructor
  next =>
    calc num * 2 ^ shift
        < 2 ^ (num.log2 + 1) * 2 ^ shift := Nat.mul_lt_mul_of_pos_right numHigh (by positivity)
      _ = 2 ^ den.log2 * (2 * 2 ^ 52) * 2 ^ (guess + shift).toNat := by
        rw [← pow_succ', ← pow_add, ← pow_add, ← pow_add]
        exact congrArg (2 ^ ·) (by omega)
      _ ≤ den * (2 * 2 ^ 52) * 2 ^ (guess + shift).toNat := by gcongr
  next =>
    calc den * 2 ^ 52 * 2 ^ (guess - 1 + shift).toNat
        ≤ 2 ^ (den.log2 + 1) * 2 ^ 52 * 2 ^ (guess - 1 + shift).toNat := by gcongr
      _ = 2 ^ num.log2 * 2 ^ shift := by
        rw [← pow_add, ← pow_add, ← pow_add]
        exact congrArg (2 ^ ·) (by omega)
      _ ≤ num * 2 ^ shift := by gcongr

theorem exponentOf_spec (numPositive : 0 < num) (denPositive : 0 < den) :
    leastExponent ≤ exponentOf num den ∧
      Below num den (2 * mantissaUnit) (exponentOf num den) ∧
        (¬ Below num den mantissaUnit (exponentOf num den) ∨
          exponentOf num den = leastExponent) := by
  obtain ⟨high, low⟩ := below_guess numPositive denPositive rfl
  obtain ⟨full, same, below, notBelow⟩ : ∃ full,
      exponentOf num den = max leastExponent full ∧ Below num den (2 * mantissaUnit) full ∧
        ¬ Below num den mantissaUnit full := by
    unfold exponentOf
    dsimp only
    split
    next below => exact ⟨_, rfl, below_double_iff.2 below, low⟩
    next notBelow => exact ⟨_, rfl, high, notBelow⟩
  rw [same]
  refine ⟨le_max_left _ _, below.mono (le_max_right _ _), ?_⟩
  rcases le_total leastExponent full with le | le
  next => exact .inl (by rwa [max_eq_right le])
  next => exact .inr (max_eq_left le)

theorem roundDiv_bounds (num den : Nat) :
    num / den ≤ roundDiv num den ∧ roundDiv num den ≤ num / den + 1 := by
  have parity := Nat.mod_lt (num / den) Nat.two_pos
  unfold roundDiv
  dsimp only
  split
  next => omega
  next => split <;> omega

theorem isNormal_ofRatio (negative : Bool) (num : Nat) (positive : 0 < den) :
    (ofRatio negative num den).IsNormal := by
  by_cases zero : num = 0
  next =>
    rw [ofRatio, if_pos zero]
    exact isNormal_zero negative
  next =>
    obtain ⟨above, below, full⟩ := exponentOf_spec (Nat.pos_of_ne_zero zero) positive
    have denPositive := scale_pos num positive (exponentOf num den)
    unfold Below at below full
    rw [ofRatio, if_neg zero]
    extract_lets exponent
    change leastExponent ≤ exponent at above
    generalize scale num den exponent = ratio at below full denPositive ⊢
    obtain ⟨n, d⟩ := ratio
    dsimp only at below full denPositive ⊢
    obtain ⟨low, high⟩ := roundDiv_bounds n d
    have small := Nat.div_lt_of_lt_mul below
    have unit := mantissaUnit_pos
    generalize roundDiv n d = mantissa at low high ⊢
    split
    all_goals dsimp only; split
    next => trivial
    next => exact isNormal_finite_iff.2 (by omega)
    next => trivial
    next notTwice _ =>
      refine isNormal_finite_iff.2 ⟨by omega, above, full.imp_left fun notBelow => ?_⟩
      refine le_trans ((Nat.le_div_iff_mul_le denPositive).2 ?_) low
      rw [mul_comm]
      exact not_lt.1 notBelow

theorem isNormal_ofDecimal (negative : Bool) (digits : Nat) (power : Int) :
    (ofDecimal negative digits power).IsNormal := by
  unfold ofDecimal
  dsimp only
  split_ifs
  next => exact isNormal_zero negative
  next => trivial
  next => exact isNormal_zero negative
  next => exact isNormal_ofRatio _ _ Nat.one_pos
  next => exact isNormal_ofRatio _ _ (Nat.pow_pos (by decide))

theorem IsNormal.neg (normal : x.IsNormal) : x.neg.IsNormal := by
  cases x <;> exact normal

theorem isNormal_add (x y : Double) : (x.add y).IsNormal := by
  unfold add
  split
  next =>
    dsimp only [ofSignedRatio]
    split
    next => exact isNormal_zero _
    next => exact isNormal_ofRatio _ _ (Nat.mul_pos (toRatio_pos _ _) (toRatio_pos _ _))
  next => split <;> trivial
  all_goals trivial

end Rounding

end Double

theorem Decimal.isNormal_double? {text : Text} {number : Double}
    (found : Decimal.double? text = some number) : number.IsNormal := by
  unfold Decimal.double? at found
  dsimp only at found
  split_ifs at found
  next => cases found; trivial
  next => cases found; trivial
  next =>
    obtain ⟨power, -, rfl⟩ := Option.map_eq_some_iff.1 found
    exact Double.isNormal_ofDecimal _ _ _

end Inlay
