import Inlay.Text.Codec
import Mathlib.Data.List.TakeWhile
import Mathlib.Tactic.MkIffOfInductiveProp
import Mathlib.Tactic.SplitIfs

set_option autoImplicit false

namespace Inlay.Utf8

variable {first second b : UInt8} {rest tail bytes left : Bytes} {c : Char} {text : Text}
variable {width n position : Nat}

theorem isContinuation_iff : isContinuation b = true ↔ 128 ≤ b.toNat ∧ b.toNat < 192 := by
  simp only [isContinuation, Bool.and_eq_true, decide_eq_true_eq, UInt8.le_iff_toNat_le]
  change 128 ≤ b.toNat ∧ b.toNat ≤ 191 ↔ _
  omega

theorem width?_eq_some_iff : width? first = some width ↔
    width = 1 ∧ first.toNat < 128 ∨ width = 2 ∧ 194 ≤ first.toNat ∧ first.toNat < 224 ∨
      width = 3 ∧ 224 ≤ first.toNat ∧ first.toNat < 240 ∨
      width = 4 ∧ 240 ≤ first.toNat ∧ first.toNat < 245 := by
  unfold width?
  simp only [UInt8.lt_iff_toNat_lt]
  change (if first.toNat < 128 then some 1 else if first.toNat < 194 then none
    else if first.toNat < 224 then some 2 else if first.toNat < 240 then some 3
    else if first.toNat < 245 then some 4 else none) = some width ↔ _
  split_ifs <;> simp <;> omega

theorem admits_iff : admits first second = true ↔
    (128 ≤ second.toNat ∧ second.toNat < 192) ∧
      (first.toNat = 224 → 160 ≤ second.toNat) ∧ (first.toNat = 237 → second.toNat < 160) ∧
      (first.toNat = 240 → 144 ≤ second.toNat) ∧ (first.toNat = 244 → second.toNat < 144) := by
  simp only [admits, Bool.and_eq_true, isContinuation_iff, Bool.not_eq_true', Bool.and_eq_false_iff,
    beq_eq_false_iff_ne, decide_eq_false_iff_not, UInt8.lt_iff_toNat_lt, UInt8.le_iff_toNat_le, Ne,
    ← UInt8.toNat_inj]
  change ((((128 ≤ second.toNat ∧ second.toNat < 192) ∧ (¬ first.toNat = 224 ∨ ¬ second.toNat < 160)) ∧
    (¬ first.toNat = 237 ∨ ¬ 160 ≤ second.toNat)) ∧ (¬ first.toNat = 240 ∨ ¬ second.toNat < 144)) ∧
    (¬ first.toNat = 244 ∨ ¬ 144 ≤ second.toNat) ↔ _
  omega

def Continues (first : UInt8) : Bytes → Prop
  | [] => True
  | second :: more => admits first second = true ∧ ∀ b ∈ more, isContinuation b = true

theorem accepted_eq_iff : accepted first n rest = n ↔
    ∃ tail left, rest = tail ++ left ∧ tail.length = n ∧ Continues first tail := by
  constructor
  next =>
    intro all
    match n, rest with
    | 0, rest => exact ⟨[], rest, rfl, rfl, trivial⟩
    | n + 1, [] => simp [accepted] at all
    | n + 1, second :: more =>
      rw [accepted] at all
      split at all
      next admitted =>
        have whole := (List.takeWhile_sublist isContinuation (l := more.take n)).length_le
        have short := List.length_take_le n more
        refine ⟨second :: more.take n, more.drop n, by simp, ?_, admitted, ?_⟩
        next => simp only [List.length_cons]; omega
        next =>
          have same : (more.take n).takeWhile isContinuation = more.take n :=
            (List.takeWhile_prefix _).eq_of_length (by omega)
          rw [← same]
          exact List.all_eq_true.1 List.all_takeWhile
      next => omega
  next =>
    rintro ⟨tail, left, rfl, rfl, continues⟩
    match tail with
    | [] => simp [accepted]
    | second :: more =>
      obtain ⟨admitted, continuations⟩ := continues
      have all : more.takeWhile isContinuation = more := List.takeWhile_eq_self_iff.2 continuations
      simp [accepted, admitted, all, Nat.add_comm]

@[mk_iff]
structure Forms (first : UInt8) (tail : Bytes) : Prop where
  width : width? first = some (tail.length + 1)
  continues : Continues first tail

def charOf (first : UInt8) (tail : Bytes) : Char :=
  Char.ofNat (value first (tail.length + 1) tail)

theorem front_eq_character_iff_forms : front first rest = .character c n ↔
    ∃ tail left, rest = tail ++ left ∧ tail.length = n ∧ Forms first tail ∧ c = charOf first tail := by
  unfold front
  cases wide : width? first with
  | none =>
    simp only [reduceCtorEq, false_iff, not_exists]
    rintro tail left ⟨-, -, forms, -⟩
    cases wide.symm.trans forms.width
  | some width =>
    have positive : 0 < width := by rcases width?_eq_some_iff.1 wide with h | h | h | h <;> omega
    dsimp only
    constructor
    next =>
      intro read
      split at read
      next all =>
        obtain ⟨tail, left, rfl, counted, continues⟩ := accepted_eq_iff.1 all
        rw [all, ← counted, List.take_left] at read
        cases read
        have same : width = tail.length + 1 := by omega
        subst same
        exact ⟨tail, left, rfl, rfl, ⟨wide, continues⟩, rfl⟩
      next => split at read <;> cases read
    next =>
      rintro ⟨tail, left, rfl, rfl, forms, rfl⟩
      cases wide.symm.trans forms.width
      have all : accepted first tail.length (tail ++ left) = tail.length :=
        accepted_eq_iff.2 ⟨tail, left, rfl, rfl, forms.continues⟩
      simp [all, charOf]

theorem toNat_ofNat {n : Nat} (valid : n.isValidChar) : (Char.ofNat n).toNat = n := by
  have whole : Char.ofNat n = Char.ofNatAux n valid := dif_pos valid
  rw [whole]
  rfl

theorem ofNat_eq_iff : UInt8.ofNat n = b ↔ n % 256 = b.toNat := by
  rw [← UInt8.toNat_inj, UInt8.toNat_ofNat']

theorem toNat_charOf (valid : n.isValidChar) (same : value first (tail.length + 1) tail = n) :
    (charOf first tail).toNat = n := by
  rw [charOf, same, toNat_ofNat valid]

section Values

variable {third fourth : UInt8}

theorem forms_one : Forms first [] ↔ first.toNat < 128 := by
  simp [forms_iff, width?_eq_some_iff, Continues]

theorem forms_two : Forms first [second] ↔
    (194 ≤ first.toNat ∧ first.toNat < 224) ∧ 128 ≤ second.toNat ∧ second.toNat < 192 := by
  simp [forms_iff, width?_eq_some_iff, Continues, admits_iff]
  omega

theorem forms_three : Forms first [second, third] ↔
    (224 ≤ first.toNat ∧ first.toNat < 240) ∧ (128 ≤ second.toNat ∧ second.toNat < 192) ∧
      (first.toNat = 224 → 160 ≤ second.toNat) ∧ (first.toNat = 237 → second.toNat < 160) ∧
      128 ≤ third.toNat ∧ third.toNat < 192 := by
  simp [forms_iff, width?_eq_some_iff, Continues, admits_iff, isContinuation_iff]
  omega

theorem forms_four : Forms first [second, third, fourth] ↔
    (240 ≤ first.toNat ∧ first.toNat < 245) ∧ (128 ≤ second.toNat ∧ second.toNat < 192) ∧
      (first.toNat = 240 → 144 ≤ second.toNat) ∧ (first.toNat = 244 → second.toNat < 144) ∧
      (128 ≤ third.toNat ∧ third.toNat < 192) ∧ 128 ≤ fourth.toNat ∧ fourth.toNat < 192 := by
  simp [forms_iff, width?_eq_some_iff, Continues, admits_iff, isContinuation_iff]
  omega

theorem toNat_charOf_one (forms : Forms first []) : (charOf first []).toNat = first.toNat := by
  rw [forms_one] at forms
  exact toNat_charOf (.inl (by omega)) rfl

-- The value of two bytes is always below the surrogates.
theorem toNat_charOf_two (first second : UInt8) :
    (charOf first [second]).toNat = first.toNat % 32 * 64 + second.toNat % 64 :=
  toNat_charOf (.inl (by omega)) rfl

theorem toNat_charOf_three (forms : Forms first [second, third]) :
    (charOf first [second, third]).toNat =
      (first.toNat % 16 * 64 + second.toNat % 64) * 64 + third.toNat % 64 := by
  rw [forms_three] at forms
  refine toNat_charOf ?_ rfl
  rw [Nat.isValidChar]
  omega

theorem toNat_charOf_four (forms : Forms first [second, third, fourth]) :
    (charOf first [second, third, fourth]).toNat =
      ((first.toNat % 8 * 64 + second.toNat % 64) * 64 + third.toNat % 64) * 64 +
        fourth.toNat % 64 := by
  rw [forms_four] at forms
  exact toNat_charOf (.inr (by omega)) rfl

end Values

theorem length_le_of_forms (forms : Forms first tail) : tail.length ≤ 3 := by
  rcases width?_eq_some_iff.1 forms.width with h | h | h | h <;> omega

theorem encodeChar_eq (c : Char) : String.utf8EncodeChar c =
    if c.toNat ≤ 0x7F then [UInt8.ofNat c.toNat]
    else if c.toNat ≤ 0x7FF then
      [UInt8.ofNat (c.toNat / 64 % 32 + 192), UInt8.ofNat (c.toNat % 64 + 128)]
    else if c.toNat ≤ 0xFFFF then
      [UInt8.ofNat (c.toNat / 4096 % 16 + 224), UInt8.ofNat (c.toNat / 64 % 64 + 128),
        UInt8.ofNat (c.toNat % 64 + 128)]
    else
      [UInt8.ofNat (c.toNat / 262144 % 8 + 240), UInt8.ofNat (c.toNat / 4096 % 64 + 128),
        UInt8.ofNat (c.toNat / 64 % 64 + 128), UInt8.ofNat (c.toNat % 64 + 128)] := rfl

theorem encodeChar_charOf (forms : Forms first tail) :
    String.utf8EncodeChar (charOf first tail) = first :: tail := by
  have short := length_le_of_forms forms
  rw [encodeChar_eq]
  match tail with
  | [] =>
    rw [toNat_charOf_one forms]
    rw [forms_one] at forms
    rw [if_pos (by omega), UInt8.ofNat_toNat]
  | [second] =>
    rw [toNat_charOf_two]
    rw [forms_two] at forms
    rw [if_neg (by omega), if_pos (by omega)]
    simp only [List.cons.injEq, ofNat_eq_iff, and_true]
    omega
  | [second, third] =>
    rw [toNat_charOf_three forms]
    rw [forms_three] at forms
    rw [if_neg (by omega), if_neg (by omega), if_pos (by omega)]
    simp only [List.cons.injEq, ofNat_eq_iff, and_true]
    omega
  | [second, third, fourth] =>
    rw [toNat_charOf_four forms]
    rw [forms_four] at forms
    rw [if_neg (by omega), if_neg (by omega), if_neg (by omega)]
    simp only [List.cons.injEq, ofNat_eq_iff, and_true]
    omega

theorem eq_charOf_of_encodeChar (encoded : String.utf8EncodeChar c = first :: tail) :
    Forms first tail ∧ c = charOf first tail := by
  have valid : c.toNat < 55296 ∨ 57343 < c.toNat ∧ c.toNat < 1114112 := c.valid
  rw [← Char.toNat_inj]
  rw [encodeChar_eq] at encoded
  split_ifs at encoded <;> cases encoded
  next =>
    have forms : Forms (UInt8.ofNat c.toNat) [] := by
      rw [forms_one, UInt8.toNat_ofNat']
      omega
    rw [toNat_charOf_one forms, UInt8.toNat_ofNat']
    exact ⟨forms, by omega⟩
  next =>
    have forms : Forms (UInt8.ofNat (c.toNat / 64 % 32 + 192)) [UInt8.ofNat (c.toNat % 64 + 128)] := by
      simp only [forms_two, UInt8.toNat_ofNat']
      omega
    rw [toNat_charOf_two]
    simp only [UInt8.toNat_ofNat']
    exact ⟨forms, by omega⟩
  next =>
    have forms : Forms (UInt8.ofNat (c.toNat / 4096 % 16 + 224))
        [UInt8.ofNat (c.toNat / 64 % 64 + 128), UInt8.ofNat (c.toNat % 64 + 128)] := by
      simp only [forms_three, UInt8.toNat_ofNat']
      omega
    rw [toNat_charOf_three forms]
    simp only [UInt8.toNat_ofNat']
    exact ⟨forms, by omega⟩
  next =>
    have forms : Forms (UInt8.ofNat (c.toNat / 262144 % 8 + 240))
        [UInt8.ofNat (c.toNat / 4096 % 64 + 128), UInt8.ofNat (c.toNat / 64 % 64 + 128),
          UInt8.ofNat (c.toNat % 64 + 128)] := by
      simp only [forms_four, UInt8.toNat_ofNat']
      omega
    rw [toNat_charOf_four forms]
    simp only [UInt8.toNat_ofNat']
    exact ⟨forms, by omega⟩

theorem encodeChar_eq_iff : String.utf8EncodeChar c = first :: tail ↔
    Forms first tail ∧ c = charOf first tail := by
  refine ⟨eq_charOf_of_encodeChar, ?_⟩
  rintro ⟨forms, rfl⟩
  exact encodeChar_charOf forms

theorem front_eq_character_iff : front first rest = .character c n ↔
    ∃ tail left, rest = tail ++ left ∧ tail.length = n ∧
      String.utf8EncodeChar c = first :: tail := by
  simp only [encodeChar_eq_iff, front_eq_character_iff_forms]

theorem encode_cons (c : Char) (text : Text) :
    encode (c :: text) = String.utf8EncodeChar c ++ encode text := rfl

theorem exists_encodeChar (c : Char) : ∃ first tail, String.utf8EncodeChar c = first :: tail := by
  refine List.ne_nil_iff_exists_cons.1 fun nothing => ?_
  have size := String.length_utf8EncodeChar c
  rw [nothing] at size
  exact Nat.ne_of_lt c.utf8Size_pos size

theorem decodeFrom_encode (position : Nat) (text : Text) :
    decodeFrom position (encode text) = .ok (text, []) := by
  induction text generalizing position with
  | nil => simp [encode, decodeFrom]
  | cons c text ih =>
    obtain ⟨first, tail, written⟩ := exists_encodeChar c
    rw [encode_cons, written, List.cons_append, decodeFrom,
      front_eq_character_iff.2 ⟨tail, encode text, rfl, rfl, written⟩]
    simp [ih, Except.map]

theorem eq_of_decodeFrom (decoded : decodeFrom position bytes = .ok (text, left)) :
    bytes = encode text ++ left := by
  fun_induction decodeFrom position bytes generalizing text with
  | case1 => cases decoded; rfl
  | case2 position first rest c more found ih =>
    obtain ⟨tail, behind, rfl, rfl, written⟩ := front_eq_character_iff.1 found
    rw [List.drop_left] at decoded ih
    cases further : decodeFrom (position + 1 + tail.length) behind with
    | error fault => simp [further, Except.map] at decoded
    | ok result =>
      obtain ⟨text', left'⟩ := result
      rw [further] at decoded
      cases decoded
      rw [encode_cons, written, ih further]
      simp
  | case3 => cases decoded; rfl
  | case4 => cases decoded

theorem decode_eq_ok_iff : decode bytes = .ok text ↔ encode text = bytes := by
  constructor
  next =>
    intro decoded
    unfold decode at decoded
    split at decoded
    next => cases decoded
    next text' found =>
      cases decoded
      rw [eq_of_decodeFrom found, List.append_nil]
    next => cases decoded
  next =>
    rintro rfl
    rw [decode, decodeFrom_encode]

theorem mem_encodeChar_iff (small : b.toNat < 128) :
    b ∈ String.utf8EncodeChar c ↔ c.toNat = b.toNat := by
  rw [encodeChar_eq]
  split_ifs <;>
    simp only [List.mem_cons, List.not_mem_nil, or_false, ← UInt8.toNat_inj, UInt8.toNat_ofNat'] <;>
    omega

end Inlay.Utf8
