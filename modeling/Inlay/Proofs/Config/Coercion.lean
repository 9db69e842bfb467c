import Inlay.Config.Environment
import Inlay.Proofs.Decimal.Whole
import Inlay.Value.Display

set_option autoImplicit false

namespace Inlay.Environment

open Text Decimal

def truthWord (truth : Bool) : Text :=
  if truth then "true".toList else "false".toList

inductive Reads (value : Text) : Scalar → Prop
  | word (truth : Bool) (same : lower (strip value) = truthWord truth) : Reads value (.bool truth)
  | number (numeral : Numeral) (written : numeral.write = strip value)
      (short : numeral.digits.length ≤ digitLimit)
      (clear : ∀ c ∈ value, isBlank c = true → isNumberBlank c = true) :
      Reads value (.int numeral.value)
  | text (wordless : ∀ truth, lower (strip value) ≠ truthWord truth)
      (plain : ∀ numeral : Numeral, numeral.write ≠ strip value) : Reads value (.text (strip value))

variable {value before after : Text} {result : Scalar} {truth : Bool} {numeral : Numeral} {n : Int}

theorem truthWord_ne : truthWord true ≠ truthWord false := by
  decide

theorem truth?_eq_some_iff : truth? value = some truth ↔ lower (strip value) = truthWord truth := by
  unfold truth?
  generalize lower (strip value) = small
  change (if small = truthWord true then some true
    else if small = truthWord false then some false else none) = some truth ↔ _
  by_cases yes : small = truthWord true
  next => cases truth <;> simp [yes, truthWord_ne]
  next =>
    by_cases no : small = truthWord false
    next => cases truth <;> simp [no, truthWord_ne.symm]
    next => cases truth <;> simp [yes, no]

theorem isWholeNumber_iff {text : Text} :
    isWholeNumber text = true ↔ ∃ numeral : Numeral, numeral.write = text := by
  rw [Numeral.exists_write_iff, isWholeNumber, Bool.and_eq_true, bne_iff_ne, List.all_eq_true]

-- No word for a truth value has a digit in it, and small letters leave digits as they are.
theorem ne_truthWord_of_numeral (written : numeral.write = strip value) (truth : Bool) :
    lower (strip value) ≠ truthWord truth := by
  intro same
  obtain ⟨c, member⟩ := List.exists_mem_of_ne_nil _ numeral.nonempty
  have digit := numeral.plain c member
  have inside : c ∈ truthWord truth := by
    rw [← same, ← written]
    exact mem_lower_of_isDigit digit (List.mem_append_right _ member)
  have letters : (truthWord truth).any isDigit = false := by cases truth <;> decide
  exact List.any_eq_false.1 letters c inside digit

theorem coerce_of_word (same : lower (strip value) = truthWord truth) :
    coerce value = .ok (.bool truth) := by
  rw [coerce, truth?_eq_some_iff.2 same]

theorem truth?_eq_none (wordless : ∀ truth, lower (strip value) ≠ truthWord truth) :
    truth? value = none := by
  rw [Option.eq_none_iff_forall_ne_some]
  exact fun truth found => wordless truth (truth?_eq_some_iff.1 found)

theorem coerce_of_numeral (written : numeral.write = strip value) :
    coerce value = match int? 10 value with
      | some n => .ok (.int n)
      | none => .error ⟨value⟩ := by
  rw [coerce, truth?_eq_none (ne_truthWord_of_numeral written)]
  exact if_pos (isWholeNumber_iff.2 ⟨numeral, written⟩)

theorem coerce_of_text (wordless : ∀ truth, lower (strip value) ≠ truthWord truth)
    (plain : ∀ numeral : Numeral, numeral.write ≠ strip value) :
    coerce value = .ok (.text (strip value)) := by
  have other : ¬ isWholeNumber (strip value) = true := by
    rw [isWholeNumber_iff]
    rintro ⟨numeral, written⟩
    exact plain numeral written
  simp only [coerce, truth?_eq_none wordless, if_neg other]

theorem coerce_of_reads (reads : Reads value result) : coerce value = .ok result := by
  cases reads with
  | word truth same => exact coerce_of_word same
  | number numeral written short clear =>
    rw [coerce_of_numeral written, int?_of_strip written.symm clear, if_neg (Nat.not_lt.2 short)]
  | text wordless plain => exact coerce_of_text wordless plain

theorem reads_or_refused (value : Text) : (∃ result, Reads value result) ∨
    ∃ numeral : Numeral, numeral.write = strip value ∧ int? 10 value = none := by
  by_cases worded : ∃ truth, lower (strip value) = truthWord truth
  next =>
    obtain ⟨truth, same⟩ := worded
    exact .inl ⟨_, .word truth same⟩
  by_cases whole : ∃ numeral : Numeral, numeral.write = strip value
  next =>
    obtain ⟨numeral, written⟩ := whole
    cases read : int? 10 value with
    | none => exact .inr ⟨numeral, written, rfl⟩
    | some n =>
      have fit := (int?_eq_none_iff written.symm).not.1 (by rw [read]; exact Option.some_ne_none n)
      simp only [not_or, Nat.not_lt, not_exists, not_and, Bool.not_eq_false] at fit
      exact .inl ⟨_, .number numeral written fit.1 fit.2⟩
  next =>
    rw [not_exists] at worded whole
    exact .inl ⟨_, .text worded whole⟩

theorem coerce_of_none (written : numeral.write = strip value) (missing : int? 10 value = none) :
    coerce value = .error ⟨value⟩ := by
  rw [coerce_of_numeral written, missing]

theorem coerce_eq_ok_iff : coerce value = .ok result ↔ Reads value result := by
  refine ⟨fun found => ?_, coerce_of_reads⟩
  rcases reads_or_refused value with ⟨other, reads⟩ | ⟨numeral, written, missing⟩
  next =>
    rw [coerce_of_reads reads] at found
    cases found
    exact reads
  next =>
    rw [coerce_of_none written missing] at found
    cases found

theorem exists_coerce_eq_error_iff : (∃ fault, coerce value = .error fault) ↔
    ∃ numeral : Numeral, numeral.write = strip value ∧ (digitLimit < numeral.digits.length ∨
      ∃ c ∈ value, isBlank c = true ∧ isNumberBlank c = false) := by
  constructor
  next =>
    rintro ⟨fault, failed⟩
    rcases reads_or_refused value with ⟨result, reads⟩ | ⟨numeral, written, missing⟩
    next =>
      rw [coerce_of_reads reads] at failed
      cases failed
    next => exact ⟨numeral, written, (int?_eq_none_iff written.symm).1 missing⟩
  next =>
    rintro ⟨numeral, written, unfit⟩
    exact ⟨_, coerce_of_none written ((int?_eq_none_iff written.symm).2 unfit)⟩

namespace Reads

theorem eq_bool_iff (reads : Reads value result) :
    result = .bool truth ↔ lower (strip value) = truthWord truth := by
  cases reads with
  | word other same =>
    rw [same, Scalar.bool.injEq]
    cases other <;> cases truth <;> simp [truthWord_ne, truthWord_ne.symm]
  | number numeral written short clear =>
    exact iff_of_false (by simp) (ne_truthWord_of_numeral written truth)
  | text wordless plain => exact iff_of_false (by simp) (wordless truth)

theorem eq_int_iff (reads : Reads value result) : result = .int n ↔
    ∃ numeral : Numeral, numeral.write = strip value ∧ numeral.value = n := by
  constructor
  next =>
    rintro rfl
    cases reads with
    | number numeral written short clear => exact ⟨numeral, written, rfl⟩
  next =>
    rintro ⟨numeral, written, rfl⟩
    cases reads with
    | word truth same => exact absurd same (ne_truthWord_of_numeral written truth)
    | number other written' short clear =>
      rw [Numeral.value_congr (written'.trans written.symm)]
    | text wordless plain => exact absurd written (plain numeral)

theorem kinds (reads : Reads value result) :
    (∃ truth, result = .bool truth) ∨ (∃ n, result = .int n) ∨ result = .text (strip value) := by
  cases reads with
  | word truth same => exact .inl ⟨truth, rfl⟩
  | number numeral written short clear => exact .inr (.inl ⟨numeral.value, rfl⟩)
  | text wordless plain => exact .inr (.inr rfl)

end Reads

theorem reads_ofInt (short : (ofNat n.natAbs).length ≤ digitLimit)
    (blanks : ∀ c ∈ before ++ after, isNumberBlank c = true) :
    Reads (before ++ (Text.ofInt n ++ after)) (.int n) := by
  have outer : ∀ c ∈ before ++ after, isBlank c = true :=
    fun c member => isBlank_of_isNumberBlank (blanks c member)
  rw [List.forall_mem_append] at outer
  have solid : ∀ c ∈ Text.ofInt n, isBlank c = false := by
    rw [← Numeral.write_ofInt]
    exact fun c => Numeral.isBlank_of_mem_write
  have written : (Numeral.ofInt n).write = strip (before ++ (Text.ofInt n ++ after)) := by
    rw [strip, trimBy_around outer.1 outer.2 solid, Numeral.write_ofInt]
  have reads := Reads.number (Numeral.ofInt n) written short fun c member blank => by
    simp only [List.mem_append] at member blanks
    rcases member with first | inside | last
    next => exact blanks c (.inl first)
    next => simp [solid c inside] at blank
    next => exact blanks c (.inr last)
  rwa [Numeral.value_ofInt] at reads

theorem strip_strip (value : Text) : strip (strip value) = strip value :=
  trimBy_trimBy isBlank value

theorem reads_display (reads : Reads value result) : Reads result.display result := by
  cases reads with
  | word truth same =>
    cases truth
    next => exact .word false rfl
    next => exact .word true rfl
  | number numeral written short clear =>
    have shorter := Nat.le_trans numeral.length_digits_ofInt_value_le short
    have reads : Reads ([] ++ (Text.ofInt numeral.value ++ [])) (.int numeral.value) :=
      reads_ofInt shorter (by simp)
    rwa [List.append_nil, List.nil_append] at reads
  | text wordless plain =>
    have again : Reads (strip value) (.text (strip (strip value))) :=
      .text (by rwa [strip_strip]) (by rwa [strip_strip])
    rwa [strip_strip] at again

/-- What a text stands for, the text of that stands for as well: a truth value just if the text
without the blanks around it says `true` or `false` in small letters, a whole number just if it is
digits of any script, perhaps with a sign, and else what is left of the text. Only a numeral that is
too long or has an information separator around it stands for nothing. With spaces or other blanks
around it every whole number of no more digits than are read stands for itself. -/
theorem coerce_settled (value : Text) :
    (∀ result, coerce value = .ok result →
      coerce result.display = .ok result ∧
      (∀ truth, result = .bool truth ↔ lower (strip value) = truthWord truth) ∧
      (∀ n, result = .int n ↔
        ∃ numeral : Numeral, numeral.write = strip value ∧ numeral.value = n) ∧
      ((∃ truth, result = .bool truth) ∨ (∃ n, result = .int n) ∨ result = .text (strip value))) ∧
    ((∃ fault, coerce value = .error fault) ↔
      ∃ numeral : Numeral, numeral.write = strip value ∧ (digitLimit < numeral.digits.length ∨
        ∃ c ∈ value, isBlank c = true ∧ isNumberBlank c = false)) ∧
    ∀ (n : Int) (before after : Text), (ofNat n.natAbs).length ≤ digitLimit →
      (∀ c ∈ before ++ after, isNumberBlank c = true) →
      coerce (before ++ (Text.ofInt n ++ after)) = .ok (.int n) := by
  refine ⟨?_, exists_coerce_eq_error_iff, ?_⟩
  next =>
    intro result found
    have reads := coerce_eq_ok_iff.1 found
    exact ⟨coerce_of_reads (reads_display reads), fun _ => reads.eq_bool_iff,
      fun _ => reads.eq_int_iff, reads.kinds⟩
  next =>
    intro n before after short blanks
    exact coerce_of_reads (reads_ofInt short blanks)

theorem coerce_settled_of_other_digits :
    let value : Text := "\u00a0-\u0660\u06642\n"
    let separated : Text := "\x1c42"
    let result : Scalar := .int (-42)
    (coerce value = .ok result ∧ coerce result.display = .ok result ∧
        ∃ numeral : Numeral, numeral.write = strip value ∧ numeral.value = -42) ∧
      (∃ fault, coerce separated = .error fault) ∧
      ((ofNat (-42 : Int).natAbs).length ≤ digitLimit ∧
        ∀ c ∈ [' ', ' '] ++ ['\t', '\u3000'], isNumberBlank c = true) ∧
      coerce ([' ', ' '] ++ (Text.ofInt (-42) ++ ['\t', '\u3000'])) = .ok (.int (-42)) := by
  intro value separated result
  have found : coerce value = .ok result := rfl
  have short : (ofNat (-42 : Int).natAbs).length ≤ digitLimit := by decide
  have blanks : ∀ c ∈ [' ', ' '] ++ ['\t', '\u3000'], isNumberBlank c = true :=
    List.all_eq_true.1 (by decide)
  have written : (Numeral.ofInt 42).write = strip separated := rfl
  have separator : '\x1c' ∈ separated ∧ isBlank '\x1c' = true ∧ isNumberBlank '\x1c' = false :=
    ⟨List.mem_cons_self, by decide, by decide⟩
  obtain ⟨again, -, whole, -⟩ := (coerce_settled value).1 result found
  have refused := (coerce_settled separated).2.1.2 ⟨.ofInt 42, written, .inr ⟨'\x1c', separator⟩⟩
  have read := (coerce_settled value).2.2 (-42) [' ', ' '] ['\t', '\u3000'] short blanks
  exact ⟨⟨found, again, (whole (-42)).1 rfl⟩, refused, ⟨short, blanks⟩, read⟩

end Inlay.Environment
