import Inlay.Decimal.Reading
import Inlay.Proofs.Text.Digit
import Inlay.Proofs.Text.Trim

set_option autoImplicit false

namespace Inlay.Decimal

open Text

structure Numeral where
  sign : Text
  digits : Text
  signed : sign = [] ∨ sign = ['-'] ∨ sign = ['+']
  nonempty : digits ≠ []
  plain : ∀ c ∈ digits, isDigit c = true

namespace Numeral

def write (numeral : Numeral) : Text :=
  numeral.sign ++ numeral.digits

def magnitude (numeral : Numeral) : Nat :=
  ofDigitValues 10 (numeral.digits.map digitValue)

def value (numeral : Numeral) : Int :=
  if numeral.sign = ['-'] then -(numeral.magnitude : Int) else numeral.magnitude

def ofInt (n : Int) : Numeral where
  sign := if n < 0 then ['-'] else []
  digits := ofNat n.natAbs
  signed := by split <;> simp
  nonempty := Nat.toDigits_ne_nil
  plain c member := by
    rw [isDigit, digit?_of_ascii (isDigit_of_mem_ofNat member)]
    rfl

variable {numeral : Numeral} {c : Char} {text : Text}

theorem write_ofInt (n : Int) : (ofInt n).write = Text.ofInt n := by
  cases n with
  | ofNat n => rfl
  | negSucc n => simp [write, ofInt, Text.ofInt, Int.negSucc_lt_zero]

theorem value_ofInt (n : Int) : (ofInt n).value = n := by
  have same : (ofInt n).magnitude = n.natAbs := ofDigitValues_ofNat n.natAbs
  rw [value, same]
  by_cases negative : n < 0
  next => simp only [ofInt, negative, if_true]; omega
  next => simp only [ofInt, negative, if_false, List.nil_eq, reduceCtorEq]; omega

theorem magnitude_lt (numeral : Numeral) : numeral.magnitude < 10 ^ numeral.digits.length := by
  have small : ∀ value ∈ numeral.digits.map digitValue, value < 10 := by
    intro value member
    obtain ⟨c, inside, rfl⟩ := List.mem_map.1 member
    exact Nat.lt_succ_of_le (digitValue_le (numeral.plain c inside))
  have bound := ofDigitValues_lt small
  rwa [List.length_map] at bound

-- A number is not written out with more digits than it was read with.
theorem length_digits_ofInt_value_le (numeral : Numeral) :
    (ofInt numeral.value).digits.length ≤ numeral.digits.length := by
  have same : numeral.value.natAbs = numeral.magnitude := by
    rw [value]
    split <;> simp
  have positive := List.length_pos_iff.2 numeral.nonempty
  change (Nat.toDigits 10 numeral.value.natAbs).length ≤ _
  rw [Nat.length_toDigits_le_iff (by decide) positive, same]
  exact numeral.magnitude_lt

theorem sign_write (numeral : Numeral) :
    Decimal.sign numeral.write = (decide (numeral.sign = ['-']), numeral.digits) := by
  rcases numeral with ⟨sign, digits, rfl | rfl | rfl, nonempty, plain⟩
  next =>
    -- Without a sign the text begins with a digit, which is none.
    obtain ⟨c, rest, rfl⟩ := List.exists_cons_of_ne_nil nonempty
    have digit := plain c List.mem_cons_self
    change Decimal.sign (c :: rest) = _
    unfold Decimal.sign
    split
    next _ same =>
      cases same
      exact absurd digit (by decide)
    next _ same =>
      cases same
      exact absurd digit (by decide)
    next => rfl
  next => rfl
  next => rfl

theorem value_congr {other : Numeral} (same : numeral.write = other.write) :
    numeral.value = other.value := by
  have parts := congrArg Decimal.sign same
  rw [sign_write, sign_write, Prod.mk.injEq, decide_eq_decide] at parts
  simp only [value, magnitude, parts.1, parts.2]

theorem exists_sign (text : Text) : ∃ sign, (sign = [] ∨ sign = ['-'] ∨ sign = ['+']) ∧
    sign ++ (Decimal.sign text).2 = text := by
  unfold Decimal.sign
  split
  next => exact ⟨['-'], by simp, rfl⟩
  next => exact ⟨['+'], by simp, rfl⟩
  next => exact ⟨[], by simp, rfl⟩

theorem exists_write_iff : (∃ numeral : Numeral, numeral.write = text) ↔
    (Decimal.sign text).2 ≠ [] ∧ ∀ c ∈ (Decimal.sign text).2, isDigit c = true := by
  constructor
  next =>
    rintro ⟨numeral, rfl⟩
    rw [sign_write]
    exact ⟨numeral.nonempty, numeral.plain⟩
  next =>
    rintro ⟨nonempty, plain⟩
    obtain ⟨sign, signed, whole⟩ := exists_sign text
    exact ⟨⟨sign, (Decimal.sign text).2, signed, nonempty, plain⟩, whole⟩

theorem isDigit_or_of_mem_write (member : c ∈ numeral.write) :
    isDigit c = true ∨ c = '-' ∨ c = '+' := by
  rcases List.mem_append.1 member with first | digit
  next =>
    rcases numeral.signed with none | minus | plus
    next => simp [none] at first
    next => exact .inr (.inl (by simpa [minus] using first))
    next => exact .inr (.inr (by simpa [plus] using first))
  next => exact .inl (numeral.plain c digit)

theorem isBlank_of_mem_write (member : c ∈ numeral.write) : isBlank c = false := by
  rcases isDigit_or_of_mem_write member with digit | rfl | rfl
  next => exact isBlank_of_isDigit digit
  next => decide
  next => decide

end Numeral

section Reading

variable {c : Char} {text : Text} {numeral : Numeral}

theorem digitOfBase?_ten (digit : isDigit c = true) : digitOfBase? 10 c = some (digitValue c) := by
  have small := digitValue_le digit
  have letter (first last : Nat) (apart : ∀ start ∈ zeros, last < start ∨ start + 9 < first) :
      ¬ (first ≤ c.toNat ∧ c.toNat ≤ last) := apart_of_isDigit apart digit
  have lower : (decide ('a' ≤ c) && decide (c ≤ 'f')) = false := by
    rw [← Bool.decide_and, decide_eq_false_iff_not]
    exact letter 97 102 (by decide)
  have upper : (decide ('A' ≤ c) && decide (c ≤ 'F')) = false := by
    rw [← Bool.decide_and, decide_eq_false_iff_not]
    exact letter 65 70 (by decide)
  rw [digitOfBase?, lower, upper, digit?_of_isDigit digit]
  exact Option.filter_some_pos (by simpa using Nat.lt_succ_of_le small)

theorem digitOfBase?_of_not_isDigit (other : isDigit c = false) : digitOfBase? 10 c = none := by
  have none : digit? c = none := by simpa [isDigit] using other
  rw [digitOfBase?, none]
  refine Option.filter_eq_none_iff.2 fun value found => ?_
  split at found
  next => cases found; simp
  next =>
    split at found
    next => cases found; simp
    next => cases found

theorem digits?_of_plain (nonempty : text ≠ []) (plain : ∀ c ∈ text, isDigit c = true) :
    digits? 10 text = some (text.map digitValue) := by
  fun_induction digits? 10 text with
  | case1 => exact absurd rfl nonempty
  | case2 c => simp [digitOfBase?_ten (plain c List.mem_cons_self)]
  | case3 c rest => exact absurd (plain '_' (by simp)) (by decide)
  | case4 c rest last _ ih =>
    obtain ⟨first, later⟩ := List.forall_mem_cons.1 plain
    simp [digitOfBase?_ten first, ih last later]

theorem digits?_of_other (member : c ∈ text) (other : isDigit c = false) (apart : c ≠ '_') :
    digits? 10 text = none := by
  have none := digitOfBase?_of_not_isDigit other
  fun_induction digits? 10 text with
  | case1 => rfl
  | case2 d =>
    obtain rfl := List.mem_singleton.1 member
    rw [none]
    rfl
  | case3 d rest ih =>
    rcases List.mem_cons.1 member with rfl | behind
    next => simp [none]
    next =>
      have later := (List.mem_cons.1 behind).resolve_left apart
      simp [ih later]
  | case4 d rest _ _ ih =>
    rcases List.mem_cons.1 member with rfl | later
    next => simp [none]
    next => simp [ih later]

-- Base ten has no mark.
theorem skipBaseMark_ten (text : Text) : skipBaseMark 10 text = text := by
  unfold skipBaseMark
  split
  next => exact if_neg (by simp [baseMarks])
  next => rfl

theorem int?_of_write (trimmed : trimBy isNumberBlank text = numeral.write) :
    int? 10 text = if digitLimit < numeral.digits.length then none else some numeral.value := by
  have read := digits?_of_plain numeral.nonempty numeral.plain
  rw [int?, trimmed, numeral.sign_write]
  simp only [skipBaseMark_ten, read, Option.bind_eq_bind, Option.bind_some, List.length_map,
    true_and]
  split
  next => rfl
  next =>
    rw [Numeral.value, Numeral.magnitude]
    by_cases minus : numeral.sign = ['-'] <;> simp [minus]

theorem int?_of_other (member : c ∈ trimBy isNumberBlank text) (other : isDigit c = false)
    (apart : c ≠ '_' ∧ c ≠ '-' ∧ c ≠ '+') : int? 10 text = none := by
  obtain ⟨line, minus, plus⟩ := apart
  obtain ⟨front, signed, whole⟩ := Numeral.exists_sign (trimBy isNumberBlank text)
  have inside : c ∈ (sign (trimBy isNumberBlank text)).2 := by
    rw [← whole] at member
    refine (List.mem_append.1 member).resolve_left fun first => ?_
    rcases signed with rfl | rfl | rfl
    next => cases first
    next => exact absurd (List.mem_singleton.1 first) minus
    next => exact absurd (List.mem_singleton.1 first) plus
  simp [int?, skipBaseMark_ten, digits?_of_other inside other line]

theorem isBlank_of_isNumberBlank (blank : isNumberBlank c = true) : isBlank c = true := by
  simp only [isNumberBlank, Bool.and_eq_true] at blank
  exact blank.1

theorem int?_of_strip (stripped : strip text = numeral.write)
    (blanks : ∀ c ∈ text, isBlank c = true → isNumberBlank c = true) :
    int? 10 text = if digitLimit < numeral.digits.length then none else some numeral.value := by
  obtain ⟨front, back, whole, before, behind⟩ := exists_around_trimBy isBlank text
  rw [← strip, stripped] at whole
  apply int?_of_write
  rw [whole]
  refine trimBy_around (fun c member => ?_) (fun c member => ?_) fun c member => ?_
  next => exact blanks c (by simp [whole, member]) (before c member)
  next => exact blanks c (by simp [whole, member]) (behind c member)
  next =>
    rw [Bool.eq_false_iff]
    intro blank
    have solid := Numeral.isBlank_of_mem_write member
    rw [isBlank_of_isNumberBlank blank] at solid
    cases solid

theorem int?_of_separator (member : c ∈ text) (blank : isBlank c = true)
    (separator : isNumberBlank c = false) : int? 10 text = none := by
  obtain ⟨front, back, whole, before, behind⟩ := exists_around_trimBy isNumberBlank text
  have inside : c ∈ trimBy isNumberBlank text := by
    rw [whole, List.mem_append, List.mem_append] at member
    rcases member with first | inside | last
    next => simp [before c first] at separator
    next => exact inside
    next => simp [behind c last] at separator
  have other : isDigit c = false := by
    rw [Bool.eq_false_iff]
    intro digit
    rw [isBlank_of_isDigit digit] at blank
    cases blank
  refine int?_of_other inside other ⟨?_, ?_, ?_⟩ <;>
    · rintro rfl
      exact absurd blank (by decide)

theorem int?_eq_none_iff (stripped : strip text = numeral.write) : int? 10 text = none ↔
    digitLimit < numeral.digits.length ∨
      ∃ c ∈ text, isBlank c = true ∧ isNumberBlank c = false := by
  by_cases clear : ∀ c ∈ text, isBlank c = true → isNumberBlank c = true
  next =>
    have none_other : ¬ ∃ c ∈ text, isBlank c = true ∧ isNumberBlank c = false := by
      rintro ⟨c, member, blank, separator⟩
      simp [clear c member blank] at separator
    rw [int?_of_strip stripped clear, or_iff_left none_other]
    simp
  next =>
    simp only [not_forall, Bool.not_eq_true] at clear
    obtain ⟨c, member, blank, separator⟩ := clear
    exact iff_of_true (int?_of_separator member blank separator)
      (.inr ⟨c, member, blank, separator⟩)

end Reading

end Inlay.Decimal
