import Inlay.Text.Character
import Mathlib.Data.List.DropRight

set_option autoImplicit false

namespace Inlay.Text

theorem trimBy_eq_rdropWhile (p : Char → Bool) (text : Text) :
    trimBy p text = (text.dropWhile p).rdropWhile p := rfl

theorem trimBy_isInfix (p : Char → Bool) (text : Text) : trimBy p text <:+: text := by
  rw [trimBy_eq_rdropWhile]
  exact (List.rdropWhile_prefix p _).isInfix.trans (List.dropWhile_suffix p).isInfix

-- A text whose first character stays keeps it when its end is trimmed.
theorem dropWhile_rdropWhile {p : Char → Bool} {text : Text} (kept : text.dropWhile p = text) :
    (text.rdropWhile p).dropWhile p = text.rdropWhile p := by
  rw [List.dropWhile_eq_self_iff] at kept ⊢
  intro nonempty
  have front := List.rdropWhile_prefix p text
  have longer := Nat.lt_of_lt_of_le nonempty front.length_le
  have same := front.getElem nonempty
  rw [same]
  exact kept longer

theorem trimBy_trimBy (p : Char → Bool) (text : Text) :
    trimBy p (trimBy p text) = trimBy p text := by
  have kept := dropWhile_rdropWhile (List.dropWhile_idempotent (p := p) (l := text))
  rw [trimBy_eq_rdropWhile p text, trimBy_eq_rdropWhile, kept, List.rdropWhile_idempotent]

theorem trim_trim (text : Text) : trim (trim text) = trim text :=
  trimBy_trimBy isPadding text

theorem trim_isInfix (text : Text) : trim text <:+: text :=
  trimBy_isInfix isPadding text

-- Trimming takes characters of its class off the front and off the end.
theorem exists_around_trimBy (p : Char → Bool) (text : Text) : ∃ front back,
    text = front ++ (trimBy p text ++ back) ∧ (∀ c ∈ front, p c = true) ∧
      ∀ c ∈ back, p c = true := by
  refine ⟨text.takeWhile p, (text.dropWhile p).rtakeWhile p, ?_,
    List.all_eq_true.1 List.all_takeWhile, fun c member => List.mem_rtakeWhile_imp member⟩
  rw [trimBy_eq_rdropWhile, List.rdropWhile_append_rtakeWhile, List.takeWhile_append_dropWhile]

theorem trimBy_append_left {p : Char → Bool} {front text : Text}
    (outer : ∀ c ∈ front, p c = true) : trimBy p (front ++ text) = trimBy p text := by
  rw [trimBy_eq_rdropWhile, trimBy_eq_rdropWhile, List.dropWhile_append_of_pos outer]

theorem trimBy_append {p : Char → Bool} {text back : Text} (outer : ∀ c ∈ back, p c = true) :
    trimBy p (text ++ back) = trimBy p text := by
  rw [trimBy_eq_rdropWhile, trimBy_eq_rdropWhile, List.dropWhile_append]
  split
  next empty =>
    rw [List.isEmpty_iff.1 empty, List.dropWhile_eq_nil_iff.2 outer]
  next =>
    rw [List.rdropWhile, List.reverse_append, List.dropWhile_append_of_pos, ← List.rdropWhile]
    exact fun c member => outer c (List.mem_reverse.1 member)

theorem trimBy_of_solid {p : Char → Bool} {text : Text} (solid : ∀ c ∈ text, p c = false) :
    trimBy p text = text := by
  have kept : ∀ c ∈ text, ¬ p c = true := fun c member => by simp [solid c member]
  have first : text.dropWhile p = text := by
    rw [List.dropWhile_eq_self_iff]
    exact fun nonempty => kept _ (List.getElem_mem nonempty)
  rw [trimBy_eq_rdropWhile, first, List.rdropWhile_eq_self_iff]
  exact fun nonempty => kept _ (List.getLast_mem nonempty)

-- What has no character of the class is what remains between those that do.
theorem trimBy_around {p : Char → Bool} {front text back : Text}
    (before : ∀ c ∈ front, p c = true) (behind : ∀ c ∈ back, p c = true)
    (solid : ∀ c ∈ text, p c = false) : trimBy p (front ++ (text ++ back)) = text := by
  rw [trimBy_append_left before, trimBy_append behind, trimBy_of_solid solid]

theorem exists_padding_around_trim (text : Text) : ∃ front back,
    text = front ++ (trim text ++ back) ∧ (∀ c ∈ front, isPadding c = true) ∧
      ∀ c ∈ back, isPadding c = true :=
  exists_around_trimBy isPadding text

theorem trim_append_left_of_isPadding {front text : Text}
    (padded : ∀ c ∈ front, isPadding c = true) : trim (front ++ text) = trim text :=
  trimBy_append_left padded

theorem trim_append_of_isPadding {text back : Text} (padded : ∀ c ∈ back, isPadding c = true) :
    trim (text ++ back) = trim text :=
  trimBy_append padded

theorem isPadding_of_trim_concat {text : Text} {c : Char}
    (trimmed : trim (text ++ [c]) = text ++ [c]) : isPadding c = false := by
  rw [trim, trimBy_eq_rdropWhile] at trimmed
  have nonempty : ((text ++ [c]).dropWhile isPadding).rdropWhile isPadding ≠ [] := by
    simp [trimmed]
  have last := List.rdropWhile_last_not isPadding _ nonempty
  simpa [trimmed] using last

theorem trim_space_cons (text : Text) : trim (' ' :: text) = trim text := by
  have padding : isPadding ' ' = true := by decide
  simp [trim, trimBy, padding]

-- A set of characters has no letter when none of its codes is one.
theorem isWord_of_has {set : Charset} {c : Char}
    (apart : ∀ range ∈ set, ∀ code ∈ List.range' range.1 (range.2 + 1 - range.1),
      alphanumeric.hasCode code = false ∧ code ≠ '_'.toNat) (member : set.has c = true) :
    isWord c = false := by
  obtain ⟨range, inside, low, high⟩ := Charset.exists_range_of_hasCode member
  obtain ⟨symbol, other⟩ := apart range inside c.toNat (List.mem_range'_1.2 (by omega))
  have line : c ≠ '_' := by
    rintro rfl
    exact other rfl
  simp [isWord, Charset.has, symbol, line]

theorem isWord_of_isPadding {c : Char} (padding : isPadding c = true) : isWord c = false := by
  refine isWord_of_has ?_ padding
  decide +kernel

theorem isWord_of_isBlank {c : Char} (blank : isBlank c = true) : isWord c = false := by
  refine isWord_of_has ?_ blank
  decide +kernel

theorem isBlank_of_isWord {c : Char} (letter : isWord c = true) : isBlank c = false := by
  by_contra blank
  rw [Bool.not_eq_false] at blank
  rw [isWord_of_isBlank blank] at letter
  cases letter

theorem word?_append_of_symbol {word rest : Text} (nonempty : word ≠ [])
    (letters : ∀ c ∈ word, isWord c = true) (edge : ∀ c ∈ rest.head?, isWord c = false) :
    word? (word ++ rest) = some (word, rest) := by
  have taken : (word ++ rest).takeWhile isWord = word := by
    rw [List.takeWhile_append_of_pos letters]
    cases rest with
    | nil => simp
    | cons c rest => simp [edge c rfl]
  have dropped : (word ++ rest).dropWhile isWord = rest := by
    rw [List.dropWhile_append_of_pos letters]
    cases rest with
    | nil => rfl
    | cons c rest => simp [edge c rfl]
  rw [word?, taken, dropped]
  cases word with
  | nil => exact absurd rfl nonempty
  | cons c word => rfl

theorem trim_of_isWord {text : Text} (word : ∀ c ∈ text, isWord c = true) : trim text = text := by
  refine trimBy_of_solid fun c member => ?_
  by_contra padding
  rw [Bool.not_eq_false] at padding
  have letter := word c member
  rw [isWord_of_isPadding padding] at letter
  cases letter

end Inlay.Text
