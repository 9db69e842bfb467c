import Inlay.Config.Settings
import Inlay.Proofs.Text.Cut

set_option autoImplicit false

namespace Inlay

open Text

namespace Form

def Describes : Form → Text → Prop
  | suffix, text =>
    ∃ rest, text = '.' :: rest ∧ rest ≠ [] ∧ ∀ c ∈ rest, isNameChar c = true ∨ c = '.'
  | doubleSuffix, text =>
    ∃ first second, text = '.' :: (first ++ '.' :: second) ∧ first ≠ [] ∧ second ≠ [] ∧
      ∀ c ∈ first ++ second, isNameChar c = true
  | tagName, text =>
    ∃ first rest, text = first :: rest ∧ isAsciiLetter first = true ∧
      ∀ c ∈ rest, isAsciiLetter c = true ∨ isAsciiDigit c = true ∨ c = '-'

variable {form : Form} {text : Text} {c : Char}

theorem isPart_iff {p : Char → Bool} :
    isPart p text = true ↔ ∃ rest, text = '.' :: rest ∧ rest ≠ [] ∧ ∀ c ∈ rest, p c = true := by
  unfold isPart
  split
  next first rest => simp
  next other =>
    refine ⟨nofun, ?_⟩
    rintro ⟨rest, rfl, nonempty, -⟩
    obtain ⟨first, rest, rfl⟩ := List.exists_cons_of_ne_nil nonempty
    exact absurd rfl (other first rest)

theorem point_not_mem {part : Text} (names : ∀ c ∈ part, isNameChar c = true) : '.' ∉ part := by
  intro member
  have point := names _ member
  revert point
  decide

theorem hasForm_doubleSuffix_iff :
    hasForm doubleSuffix text = true ↔ doubleSuffix.Describes text := by
  constructor
  next =>
    intro formed
    obtain ⟨rest, rfl⟩ : ∃ rest, text = '.' :: rest := by
      cases text with
      | nil => cases formed
      | cons c rest =>
        by_cases point : c = '.'
        next => exact ⟨rest, by rw [point]⟩
        next => simp [hasForm, point] at formed
    rw [hasForm, Bool.and_eq_true, isPart_iff, isPart_iff] at formed
    obtain ⟨⟨first, front, nonempty, names⟩, second, back, nonempty', names'⟩ := formed
    have whole : rest = before '.' rest ++ rest.dropWhile (· != '.') :=
      List.takeWhile_append_dropWhile.symm
    rw [back, (List.cons.inj front).2] at whole
    exact ⟨first, second, by rw [whole], nonempty, nonempty',
      List.forall_mem_append.2 ⟨names, names'⟩⟩
  next =>
    rintro ⟨first, second, rfl, nonempty, nonempty', names⟩
    obtain ⟨names, names'⟩ := List.forall_mem_append.1 names
    have apart := point_not_mem names
    rw [hasForm, Bool.and_eq_true, isPart_iff, isPart_iff, before, takeWhile_append_cons apart,
      dropWhile_append_cons apart]
    exact ⟨⟨first, rfl, nonempty, names⟩, second, rfl, nonempty', names'⟩

theorem hasForm_iff : form.hasForm text = true ↔ form.Describes text := by
  cases form with
  | suffix => simp [hasForm, Describes, isPart_iff]
  | tagName =>
    cases text with
    | nil => simp [hasForm, Describes]
    | cons first rest => simp [hasForm, Describes, or_assoc]
  | doubleSuffix => exact hasForm_doubleSuffix_iff

theorem isNameChar_or_point (described : form.Describes text) :
    ∀ c ∈ text, isNameChar c = true ∨ c = '.' := by
  intro c member
  cases form with
  | suffix =>
    obtain ⟨rest, rfl, -, allowed⟩ := described
    rcases List.mem_cons.1 member with rfl | inside
    next => exact .inr rfl
    next => exact allowed c inside
  | doubleSuffix =>
    obtain ⟨first, second, rfl, -, -, allowed⟩ := described
    by_cases point : c = '.'
    next => exact .inr point
    next => exact .inl (allowed c (by simpa [point] using member))
  | tagName =>
    obtain ⟨first, rest, rfl, letter, allowed⟩ := described
    left
    rcases List.mem_cons.1 member with rfl | inside
    next => simp [isNameChar, letter]
    next => rcases allowed c inside with letter | digit | rfl <;> simp [isNameChar, *]

theorem not_endsInLine (described : form.Describes text) (body : Text) : text ≠ body ++ ['\n'] := by
  rintro rfl
  have allowed := isNameChar_or_point described '\n' (by simp)
  revert allowed
  decide

theorem admits_iff : form.admits text = true ↔
    ∃ body, form.Describes body ∧ (text = body ∨ text = body ++ ['\n']) := by
  unfold admits dropLineEnd
  rw [hasForm_iff]
  cases ends : upTo? ['\n'] text with
  | some body =>
    rw [upTo?_eq_some_iff] at ends
    subst ends
    constructor
    next => exact fun described => ⟨body, described, .inr rfl⟩
    next =>
      rintro ⟨other, described, same | same⟩
      next => exact absurd same.symm (not_endsInLine described body)
      next => rwa [Option.getD_some, List.append_cancel_right same]
  | none =>
    constructor
    next => exact fun described => ⟨text, described, .inl rfl⟩
    next =>
      rintro ⟨other, described, rfl | rfl⟩
      next => exact described
      next => simp [upTo?_eq_some_iff.2 rfl] at ends

-- A character that a text of an admitted form may have.
def MayHave (c : Char) : Prop :=
  isNameChar c = true ∨ c = '.' ∨ c = '\n'

instance (c : Char) : Decidable (MayHave c) :=
  inferInstanceAs (Decidable (_ ∨ _))

theorem mayHave_of_admits (admitted : form.admits text = true) : ∀ c ∈ text, MayHave c := by
  obtain ⟨body, described, same⟩ := admits_iff.1 admitted
  have inside (c : Char) (member : c ∈ body) : MayHave c :=
    (isNameChar_or_point described c member).imp_right .inl
  rcases same with rfl | rfl
  next => exact inside
  next => exact List.forall_mem_append.2 ⟨inside, by simp [MayHave]⟩

end Form
end Inlay
