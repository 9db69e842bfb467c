import Inlay.Proofs.Text.Cut
import Inlay.Proofs.Text.Search
import Inlay.Script.Declaration
import Mathlib.Data.List.TakeWhile

set_option autoImplicit false

namespace Inlay.Script

open Text Markup

-- A name and blanks only.
def IsBare (text name : Text) : Prop :=
  name ≠ [] ∧ (∀ c ∈ name, isWord c = true) ∧
    ∃ blanks, text = name ++ blanks ∧ ∀ c ∈ blanks, isBlank c = true

def IsBareDeclaration (text name : Text) : Prop :=
  ∃ keyword ∈ keywords, ∃ gap rest, gap ≠ [] ∧ (∀ c ∈ gap, isBlank c = true) ∧
    text = keyword ++ (gap ++ rest) ∧ IsBare rest name

def EndsBare (code name : Text) : Prop :=
  ∃ front declaration, code = front ++ declaration ∧ atWordStart front.getLast? = true ∧
    IsBareDeclaration declaration name

-- The marks at which a declaration ends.
def Form.closers : Form → List Char
  | .name => ['=', ';']
  | .object => ['}']
  | .array => [']']

theorem EndsBare.word {code name : Text} (bare : EndsBare code name) :
    name ≠ [] ∧ ∀ c ∈ name, isWord c = true := by
  obtain ⟨_, _, -, -, _, -, _, _, -, -, -, nonempty, word, -⟩ := bare
  exact ⟨nonempty, word⟩

variable {text rest behind after name body : Text} {form : Form}

section Keyword

theorem afterKeyword?_append_cons {keyword : Text} {c : Char} (known : keyword ∈ keywords)
    (blank : isBlank c = true) (text : Text) :
    afterKeyword? (keyword ++ c :: text) = some (text.dropWhile isBlank) := by
  simp only [keywords, List.mem_cons, List.not_mem_nil, or_false] at known
  rcases known with rfl | rfl | rfl
  next => simp [afterKeyword?, keywords, after?, skipBlanks?, blank]
  next => simp [afterKeyword?, keywords, after?, skipBlanks?, blank]
  next => simp [afterKeyword?, keywords, after?, skipBlanks?, blank]

theorem eq_of_afterKeyword? (found : afterKeyword? text = some rest) :
    ∃ keyword ∈ keywords, ∃ c behind, isBlank c = true ∧ text = keyword ++ c :: behind ∧
      rest = behind.dropWhile isBlank := by
  obtain ⟨keyword, known, found⟩ := List.exists_of_findSome?_eq_some found
  rw [Option.bind_eq_some_iff] at found
  obtain ⟨behind, begun, skipped⟩ := found
  cases behind with
  | nil => simp [skipBlanks?] at skipped
  | cons c behind =>
    by_cases blank : isBlank c = true
    next =>
      simp only [skipBlanks?, blank, if_true, Option.some.injEq] at skipped
      exact ⟨keyword, known, c, behind, blank, after?_eq_some_iff.1 begun, skipped.symm⟩
    next => simp [skipBlanks?, blank] at skipped

theorem afterKeyword?_append (found : afterKeyword? text = some rest) (nonempty : rest ≠ [])
    (after : Text) : afterKeyword? (text ++ after) = some (rest ++ after) := by
  obtain ⟨keyword, known, c, behind, blank, rfl, rfl⟩ := eq_of_afterKeyword? found
  rw [List.append_assoc, List.cons_append, afterKeyword?_append_cons known blank,
    List.dropWhile_append, if_neg (by simpa using nonempty)]

theorem exists_keyword_of_append (missing : afterKeyword? text = none)
    (found : afterKeyword? (text ++ after) = some rest) :
    ∃ keyword ∈ keywords, text <+: keyword := by
  obtain ⟨keyword, known, c, behind, blank, whole, -⟩ := eq_of_afterKeyword? found
  refine ⟨keyword, known, ?_⟩
  rcases List.append_eq_append_iff.1 whole with ⟨more, short, -⟩ | ⟨more, rfl, long⟩
  next => exact ⟨more, short.symm⟩
  next =>
    cases more with
    | nil => simp
    | cons d more =>
      obtain ⟨rfl, -⟩ := List.cons.inj long
      rw [afterKeyword?_append_cons known blank] at missing
      cases missing

end Keyword

section Pattern

variable {opening closing : Char}

theorem pattern?_eq_some_iff : pattern? opening closing text = some (body, rest) ↔
    body ≠ [] ∧ closing ∉ body ∧ text = opening :: (body ++ closing :: rest) := by
  constructor
  next =>
    intro found
    unfold pattern? at found
    split at found
    next => cases found
    next c text =>
      split at found
      next same =>
        have whole := List.takeWhile_append_dropWhile (p := (· != closing)) (l := text)
        split at found
        next => cases found
        next => cases found
        next d inside e behind taken dropped =>
          cases found
          have stop : e = closing := by
            have first := List.head?_dropWhile_not (· != closing) text
            simpa [dropped] using first
          refine ⟨by simp, ?_, ?_⟩
          next =>
            intro member
            rw [← taken] at member
            simpa using List.all_eq_true.1 List.all_takeWhile _ member
          next => rw [same, ← stop, ← taken, ← dropped, whole]
      next => cases found
  next =>
    rintro ⟨nonempty, apart, rfl⟩
    rw [pattern?, if_pos rfl, takeWhile_append_cons apart, dropWhile_append_cons apart]
    cases body with
    | nil => exact absurd rfl nonempty
    | cons c body => rfl

theorem pattern?_append (found : pattern? opening closing text = some (body, rest)) (after : Text) :
    pattern? opening closing (text ++ after) = some (body, rest ++ after) := by
  obtain ⟨nonempty, apart, rfl⟩ := pattern?_eq_some_iff.1 found
  exact pattern?_eq_some_iff.2 ⟨nonempty, apart, by simp⟩

theorem mem_of_pattern? (found : pattern? opening closing text = some (body, rest)) :
    closing ∈ text := by
  obtain ⟨-, -, rfl⟩ := pattern?_eq_some_iff.1 found
  simp

theorem not_mem_of_pattern?_append (apart : opening ≠ closing) (nonempty : text ≠ [])
    (missing : pattern? opening closing text = none)
    (found : pattern? opening closing (text ++ after) = some (body, rest)) : closing ∉ text := by
  obtain ⟨some_body, absent, whole⟩ := pattern?_eq_some_iff.1 found
  cases text with
  | nil => exact absurd rfl nonempty
  | cons c text =>
    rw [List.cons_append] at whole
    obtain ⟨rfl, inside⟩ := List.cons.inj whole
    intro member
    rcases List.mem_cons.1 member with same | member
    next => exact apart same.symm
    next =>
      -- The first closing mark stands in the text already, so the pattern ends in it.
      obtain ⟨front, behind, rfl, early⟩ := List.eq_append_cons_of_mem member
      rw [List.append_assoc, List.cons_append] at inside
      have same : front = body := by
        rw [← takeWhile_append_cons early (behind ++ after), inside, takeWhile_append_cons absent]
      have closed : pattern? c closing (c :: (front ++ closing :: behind)) = some (front, behind) :=
        pattern?_eq_some_iff.2 ⟨same ▸ some_body, early, rfl⟩
      rw [missing] at closed
      cases closed

end Pattern

section Name

theorem dropWhile_of_word? {word : Text} (read : word? text = some (word, rest)) :
    text.dropWhile isWord = rest := by
  unfold word? at read
  split at read
  next => cases read
  next =>
    simp only [Option.some.injEq, Prod.mk.injEq] at read
    exact read.2

theorem word?_append {c : Char} (stops : text.dropWhile isWord = c :: behind) (after : Text) :
    word? (text ++ after) = (word? text).map fun (word, rest) => (word, rest ++ after) := by
  have whole := List.takeWhile_append_dropWhile (p := isWord) (l := text)
  have stopped : isWord c = false := by
    have first := List.head?_dropWhile_not isWord text
    simpa [stops] using first
  have inside : ∀ d ∈ text.takeWhile isWord, isWord d = true :=
    fun d member => List.all_eq_true.1 List.all_takeWhile d member
  have taken : (text ++ after).takeWhile isWord = text.takeWhile isWord := by
    conv => lhs; rw [← whole, stops, List.append_assoc, List.takeWhile_append_of_pos inside]
    simp [stopped]
  have dropped : (text ++ after).dropWhile isWord = c :: behind ++ after := by
    conv => lhs; rw [← whole, stops, List.append_assoc, List.dropWhile_append_of_pos inside]
    simp [stopped]
  rw [word?, word?, taken, dropped, stops]
  cases text.takeWhile isWord <;> rfl

theorem endOfName?_append {c : Char} (stops : text.dropWhile isBlank = c :: behind) (after : Text) :
    endOfName? (text ++ after) = (endOfName? text).map (· ++ after) := by
  have dropped : (text ++ after).dropWhile isBlank = c :: (behind ++ after) := by
    rw [List.dropWhile_append, stops]
    rfl
  rw [endOfName?, endOfName?, dropped, stops]
  by_cases ends : c = '=' ∨ c = ';' <;> simp [ends]

theorem name?_of_word? (read : word? text = some (name, behind)) :
    name? text = (endOfName? behind).map fun rest => (name, rest) := by
  cases ended : endOfName? behind <;> simp [name?, read, ended]

-- A name is read up to the end of the text, or else up to a sign.
theorem cases_of_name? (found : name? text = some (name, rest)) :
    (rest = [] ∧ IsBare text name) ∨
    ∃ behind c later, word? text = some (name, behind) ∧ endOfName? behind = some rest ∧
      behind.dropWhile isBlank = c :: later ∧ c ∈ Form.closers .name ∧ c ∈ text := by
  simp only [name?, Option.bind_eq_bind, Option.bind_eq_some_iff, Prod.exists, Option.pure_def,
    Option.some.injEq, Prod.mk.injEq] at found
  obtain ⟨word, behind, read, after, ended, rfl, rfl⟩ := found
  obtain ⟨nonempty, letters, rfl⟩ := eq_of_word? read
  cases stops : behind.dropWhile isBlank with
  | nil =>
    rw [endOfName?, stops] at ended
    cases ended
    exact .inl ⟨rfl, nonempty, letters, behind, rfl, List.dropWhile_eq_nil_iff.1 stops⟩
  | cons c later =>
    have sign : c = '=' ∨ c = ';' := by
      by_contra other
      simp [endOfName?, stops, other] at ended
    have member : c ∈ behind := (List.dropWhile_suffix isBlank).subset (by simp [stops])
    exact .inr ⟨behind, c, later, read, ended, stops, by simpa [Form.closers] using sign,
      List.mem_append_right word member⟩

theorem name?_append (found : name? text = some (name, rest)) (after : Text) :
    name? (text ++ after) = some (name, rest ++ after) ∨ rest = [] ∧ IsBare text name := by
  rcases cases_of_name? found with bare | ⟨behind, c, later, read, ended, stops, -, -⟩
  next => exact .inr bare
  next =>
    left
    cases behind with
    | nil => simp at stops
    | cons d behind =>
      have onward := word?_append (dropWhile_of_word? read) after
      rw [read] at onward
      rw [name?_of_word? onward, endOfName?_append stops, ended]
      rfl

theorem mem_of_name? (found : name? text = some (name, rest)) :
    (∃ c ∈ Form.closers .name, c ∈ text) ∨ rest = [] ∧ IsBare text name := by
  rcases cases_of_name? found with bare | ⟨behind, c, later, -, -, -, closer, member⟩
  next => exact .inr bare
  next => exact .inl ⟨c, closer, member⟩

theorem isWord_of_name?_append (missing : name? text = none)
    (found : name? (text ++ after) ≠ none) : ∀ c ∈ text, isWord c = true := by
  rw [← List.dropWhile_eq_nil_iff]
  by_contra inside
  -- A character that no word has ends the name, whatever follows the text.
  obtain ⟨c, behind, stops⟩ := List.exists_cons_of_ne_nil inside
  apply found
  cases read : word? text with
  | none => simp [name?, word?_append stops, read]
  | some result =>
    obtain ⟨word, rest⟩ := result
    have ended : endOfName? rest = none := by
      rw [name?_of_word? read, Option.map_eq_none_iff] at missing
      exact missing
    cases blank : rest.dropWhile isBlank with
    | nil => simp [endOfName?, blank] at ended
    | cons d later =>
      have onward := word?_append stops after
      rw [read] at onward
      rw [name?_of_word? onward, endOfName?_append blank, ended]
      rfl

end Name

theorem Form.body?_append (found : form.body? text = some (body, rest)) (after : Text) :
    form.body? (text ++ after) = some (body, rest ++ after) ∨
      rest = [] ∧ form = .name ∧ IsBare text body := by
  cases form with
  | name => exact (name?_append found after).imp_right (And.imp_right (And.intro rfl))
  | object => exact .inl (pattern?_append found after)
  | array => exact .inl (pattern?_append found after)

theorem Form.mem_of_body? (found : form.body? text = some (body, rest)) :
    (∃ c ∈ form.closers, c ∈ text) ∨ rest = [] ∧ form = .name ∧ IsBare text body := by
  cases form with
  | name => exact (mem_of_name? found).imp_right (And.imp_right (And.intro rfl))
  | object => exact .inl ⟨_, by simp [closers], mem_of_pattern? found⟩
  | array => exact .inl ⟨_, by simp [closers], mem_of_pattern? found⟩

theorem Form.not_letter_of_closer {c : Char} (closer : c ∈ form.closers) :
    isWord c = false ∧ isBlank c = false := by
  cases form with
  | name =>
    simp only [closers, List.mem_cons, List.not_mem_nil, or_false] at closer
    rcases closer with rfl | rfl <;> decide
  | object => obtain rfl := List.mem_singleton.1 closer; decide
  | array => obtain rfl := List.mem_singleton.1 closer; decide

theorem Form.not_mem_of_body?_append (nonempty : text ≠ []) (missing : form.body? text = none)
    (found : form.body? (text ++ after) = some (body, rest)) : ∀ c ∈ form.closers, c ∉ text := by
  cases form with
  | name =>
    intro c closer member
    have longer : name? (text ++ after) ≠ none := by
      rw [show name? (text ++ after) = _ from found]
      simp
    have letter := isWord_of_name?_append missing longer c member
    rw [(Form.not_letter_of_closer closer).1] at letter
    cases letter
  | object =>
    simpa [closers] using not_mem_of_pattern?_append (by decide) nonempty missing found
  | array =>
    simpa [closers] using not_mem_of_pattern?_append (by decide) nonempty missing found

theorem isWord_of_mem_keyword {keyword : Text} (known : keyword ∈ keywords) :
    ∀ c ∈ keyword, isWord c = true := by
  have letters : (keywords.all fun keyword => keyword.all isWord) = true := by decide
  exact List.all_eq_true.1 (List.all_eq_true.1 letters keyword known)

theorem ne_nil_of_mem_keywords {keyword : Text} (known : keyword ∈ keywords) : keyword ≠ [] := by
  revert keyword
  decide

theorem symbol_not_mem_keyword {c : Char} {keyword : Text} (known : keyword ∈ keywords)
    (symbol : isWord c = false) : c ∉ keyword := by
  intro member
  rw [isWord_of_mem_keyword known c member] at symbol
  cases symbol

theorem Form.not_mem_keyword {c : Char} {keyword : Text} (closer : c ∈ form.closers)
    (known : keyword ∈ keywords) : c ∉ keyword :=
  symbol_not_mem_keyword known (Form.not_letter_of_closer closer).1

theorem Form.mem_rest_of_afterKeyword? {c : Char} (closer : c ∈ form.closers)
    (found : afterKeyword? text = some rest) (member : c ∈ text) : c ∈ rest := by
  obtain ⟨keyword, known, d, behind, blank, rfl, rfl⟩ := eq_of_afterKeyword? found
  have solid := (Form.not_letter_of_closer closer).2
  have split := List.takeWhile_append_dropWhile (p := isBlank) (l := d :: behind)
  rw [List.dropWhile_cons_of_pos blank] at split
  rw [← split] at member
  rcases List.mem_append.1 member with early | member
  next => exact absurd early (Form.not_mem_keyword closer known)
  rcases List.mem_append.1 member with gap | late
  next =>
    rw [List.all_eq_true.1 List.all_takeWhile c gap] at solid
    cases solid
  next => exact late

theorem isBareDeclaration_of_afterKeyword? (found : afterKeyword? text = some rest)
    (bare : IsBare rest name) : IsBareDeclaration text name := by
  obtain ⟨keyword, known, c, behind, blank, rfl, rfl⟩ := eq_of_afterKeyword? found
  refine ⟨keyword, known, c :: behind.takeWhile isBlank, _, by simp, ?_, ?_, bare⟩
  next =>
    intro d member
    rcases List.mem_cons.1 member with rfl | member
    next => exact blank
    next => exact List.all_eq_true.1 List.all_takeWhile d member
  next => rw [List.cons_append, List.takeWhile_append_dropWhile]

section Reading

variable {previous : Option Char}

theorem Form.exists_afterKeyword? (found : form.recogniser.read previous text = some (body, rest)) :
    atWordStart previous = true ∧
      ∃ behind, afterKeyword? text = some behind ∧ form.body? behind = some (body, rest) := by
  simp only [recogniser] at found
  split at found
  next starts => exact ⟨starts, Option.bind_eq_some_iff.1 found⟩
  next => cases found

theorem Form.read_of_afterKeyword? (starts : atWordStart previous = true)
    (found : afterKeyword? text = some behind) :
    form.recogniser.read previous text = form.body? behind := by
  simp [recogniser, starts, found]

theorem Form.ne_nil_of_body? (found : form.body? text = some (body, rest)) : text ≠ [] := by
  rintro rfl
  cases form <;> simp [body?, name?, word?, pattern?] at found

-- A text that holds no declaration but would if it went on has no sign that ends one.
theorem Form.not_mem_of_read_append (missing : form.recogniser.read previous text = none)
    (found : form.recogniser.read previous (text ++ after) = some (body, rest)) :
    ∀ c ∈ form.closers, c ∉ text := by
  intro c closer member
  obtain ⟨starts, longer, begun, read⟩ := Form.exists_afterKeyword? found
  cases short : afterKeyword? text with
  -- The text ends in its keyword or in the blanks behind it, or else in the declared body.
  | none =>
    obtain ⟨keyword, known, part⟩ := exists_keyword_of_append short begun
    exact Form.not_mem_keyword closer known (part.subset member)
  | some behind =>
    have inside := Form.mem_rest_of_afterKeyword? closer short member
    have nonempty : behind ≠ [] := List.ne_nil_of_mem inside
    rw [afterKeyword?_append short nonempty] at begun
    cases begun
    rw [Form.read_of_afterKeyword? starts short] at missing
    exact Form.not_mem_of_body?_append nonempty missing read c closer inside

theorem Form.read_append (found : form.recogniser.read previous text = some (body, rest))
    (after : Text) :
    form.recogniser.read previous (text ++ after) = some (body, rest ++ after) ∨
      rest = [] ∧ form = .name ∧ atWordStart previous = true ∧ IsBareDeclaration text body := by
  obtain ⟨starts, behind, begun, read⟩ := Form.exists_afterKeyword? found
  have onward := afterKeyword?_append begun (Form.ne_nil_of_body? read) after
  rw [Form.read_of_afterKeyword? starts onward]
  rcases Form.body?_append read after with stays | ⟨ending, plain, bare⟩
  next => exact .inl stays
  next => exact .inr ⟨ending, plain, starts, isBareDeclaration_of_afterKeyword? begun bare⟩

-- A find behind an open declaration has no sign that ends it, so it is a bare one.
theorem Form.bare_of_read_append {reached : Option Char} {place : Text}
    (missing : form.recogniser.read previous text = none)
    (longer : form.recogniser.read previous (text ++ after) ≠ none) (suffix : place <:+ text)
    (found : form.recogniser.read reached place = some (body, rest)) :
    rest = [] ∧ form = .name ∧ atWordStart reached = true ∧ IsBareDeclaration place body := by
  obtain ⟨⟨_, _⟩, longer⟩ := Option.ne_none_iff_exists'.1 longer
  have open_ended := Form.not_mem_of_read_append missing longer
  obtain ⟨starts, behind, begun, read⟩ := Form.exists_afterKeyword? found
  rcases Form.mem_of_body? read with ⟨c, closer, inside⟩ | ⟨ending, plain, bare⟩
  next =>
    obtain ⟨start, -, rfl⟩ := suffix_of_afterKeyword? begun
    exact absurd (suffix.subset (List.mem_append_right start inside)) (open_ended c closer)
  next => exact ⟨ending, plain, starts, isBareDeclaration_of_afterKeyword? begun bare⟩

theorem atWordStart_of_or {last : Option Char} (starts : atWordStart (last.or previous) = true) :
    atWordStart last = true := by
  cases last with
  | none => rfl
  | some c => exact starts

theorem Form.values_append (form : Form) (previous : Option Char) (text after : Text) :
    ∃ kept, ∃ lost : Option Text,
      (form.recogniser.pieces previous text).values = kept ++ lost.toList ∧
      kept <+: (form.recogniser.pieces previous (text ++ after)).values ∧
      ∀ name ∈ lost, form = .name ∧ EndsBare text name := by
  obtain ⟨kept, lost, split, front, only⟩ := Recogniser.values_append
    (fun found => Form.read_append found after)
    (fun missing longer member =>
      Form.bare_of_read_append missing longer (Recogniser.suffix_of_mem_places member))
    previous text
  refine ⟨kept, lost, split, front, ?_⟩
  intro name member
  obtain ⟨reached, place, there, plain, starts, bare⟩ := only name member
  obtain ⟨before, whole, rfl⟩ := Recogniser.eq_append_of_mem_places there
  exact ⟨plain, before, place, whole, atWordStart_of_or starts, bare⟩

end Reading

end Inlay.Script
