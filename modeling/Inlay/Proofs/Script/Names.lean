import Inlay.Proofs.Script.Standing
import Inlay.Proofs.Text.Split

set_option autoImplicit false

namespace Inlay.Script

open Text Markup

-- What ends the name in a piece of a pattern.
def endsPiece (c : Char) : Bool :=
  c == ':' || c == '='

def LeadsWith (piece word : Text) : Prop :=
  ∃ front back rest, piece = front ++ (word ++ (back ++ rest)) ∧
    (∀ c ∈ front ++ back, isPadding c = true) ∧ (∀ c ∈ word, isWord c = true) ∧
    ∀ c ∈ rest.head?, endsPiece c = true

def Form.piecesOf (form : Form) (code : Text) : List Text :=
  (form.recogniser.pieces none code).values.flatMap (splitAt ',')

def patternPieces (code : Text) : List Text :=
  [Form.object, Form.array].flatMap fun form => form.piecesOf (Comment.erase code)

variable {piece word name code body text : Text} {form : Form}

section Piece

-- The part of a piece that its name is taken from.
def head (piece : Text) : Text :=
  piece.takeWhile fun c => !endsPiece c

theorem endsPiece_iff {c : Char} : endsPiece c = true ↔ c = ':' ∨ c = '=' := by
  simp [endsPiece]

theorem endsPiece_of_isPadding {c : Char} (padding : isPadding c = true) : endsPiece c = false := by
  rw [Bool.eq_false_iff, ne_eq, endsPiece_iff]
  rintro (rfl | rfl) <;> revert padding <;> decide

theorem endsPiece_of_isWord {c : Char} (letter : isWord c = true) : endsPiece c = false := by
  rw [Bool.eq_false_iff, ne_eq, endsPiece_iff]
  rintro (rfl | rfl) <;> revert letter <;> decide

theorem before_before (text : Text) : before '=' (before ':' text) = head text := by
  rw [before, before, head, List.takeWhile_takeWhile]
  congr 1
  funext c
  by_cases colon : c = ':' <;> by_cases sign : c = '=' <;> simp [endsPiece, colon, sign]

theorem head_append (plain : ∀ c ∈ text, endsPiece c = false) (rest : Text) :
    head (text ++ rest) = text ++ head rest := by
  rw [head, List.takeWhile_append_of_pos, ← head]
  simpa using plain

theorem head_eq_nil {rest : Text} (ends : ∀ c ∈ rest.head?, endsPiece c = true) :
    head rest = [] := by
  cases rest with
  | nil => rfl
  | cons c rest => simp [head, ends c rfl]

theorem head_of_plain (plain : ∀ c ∈ text, endsPiece c = false) : head text = text := by
  simpa [head] using head_append plain []

theorem plain_head {c : Char} (member : c ∈ head text) : endsPiece c = false := by
  simpa using List.all_eq_true.1 List.all_takeWhile c member

theorem exists_rest_of_head (text : Text) :
    ∃ rest, text = head text ++ rest ∧ ∀ c ∈ rest.head?, endsPiece c = true := by
  refine ⟨text.dropWhile fun c => !endsPiece c, List.takeWhile_append_dropWhile.symm, ?_⟩
  intro c first
  have stop := List.head?_dropWhile_not (fun c => !endsPiece c) text
  rw [Option.mem_def.1 first] at stop
  simpa using stop

theorem nameOfPiece_eq (piece : Text) : nameOfPiece piece = trim (head piece) := by
  obtain ⟨front, back, whole, before, behind⟩ := exists_padding_around_trim piece
  obtain ⟨rest, split, ends⟩ := exists_rest_of_head (trim piece)
  have through : head piece = front ++ (head (trim piece) ++ head (rest ++ back)) := by
    have joined : piece = front ++ (head (trim piece) ++ (rest ++ back)) := by
      conv_lhs => rw [whole, split]
      simp
    conv_lhs => rw [joined, head_append fun c member => endsPiece_of_isPadding (before c member),
      head_append fun c => plain_head]
  rw [nameOfPiece, before_before, through, trim_append_left_of_isPadding before]
  -- Without a sign the padding behind the piece is left to be trimmed.
  cases rest with
  | nil =>
    rw [List.nil_append, head_of_plain fun c member => endsPiece_of_isPadding (behind c member),
      trim_append_of_isPadding behind]
  | cons c rest =>
    have nothing : head (c :: rest ++ back) = [] := head_eq_nil (by simpa using ends)
    rw [nothing, List.append_nil]

theorem nameOfPiece_of_leadsWith (leads : LeadsWith piece word) : nameOfPiece piece = word := by
  obtain ⟨front, back, rest, rfl, padded, letters, ends⟩ := leads
  obtain ⟨before, behind⟩ := List.forall_mem_append.1 padded
  have plain : ∀ c ∈ front ++ (word ++ back), endsPiece c = false := by
    simp only [List.forall_mem_append]
    exact ⟨fun c member => endsPiece_of_isPadding (before c member),
      fun c member => endsPiece_of_isWord (letters c member),
      fun c member => endsPiece_of_isPadding (behind c member)⟩
  have split : front ++ (word ++ (back ++ rest)) = (front ++ (word ++ back)) ++ rest := by simp
  rw [nameOfPiece_eq, split, head_append plain, head_eq_nil ends, List.append_nil,
    trim_append_left_of_isPadding before, trim_append_of_isPadding behind, trim_of_isWord letters]

theorem leadsWith_nameOfPiece (letters : ∀ c ∈ nameOfPiece piece, isWord c = true) :
    LeadsWith piece (nameOfPiece piece) := by
  obtain ⟨front, back, whole, before, behind⟩ := exists_padding_around_trim (head piece)
  obtain ⟨rest, split, ends⟩ := exists_rest_of_head piece
  rw [← nameOfPiece_eq] at whole
  refine ⟨front, back, rest, ?_, List.forall_mem_append.2 ⟨before, behind⟩, letters, ends⟩
  conv_lhs => rw [split, whole]
  simp

theorem leadsWith_iff :
    (∃ word, LeadsWith piece word) ↔ ∀ c ∈ nameOfPiece piece, isWord c = true := by
  constructor
  next =>
    rintro ⟨word, leads⟩
    rw [nameOfPiece_of_leadsWith leads]
    obtain ⟨-, -, -, -, -, letters, -⟩ := leads
    exact letters
  next => exact fun letters => ⟨_, leadsWith_nameOfPiece letters⟩

end Piece

section Names

theorem Form.mem_names_iff : name ∈ form.names code ↔
    name ≠ [] ∧ ∃ piece ∈ form.piecesOf code, nameOfPiece piece = name := by
  simp only [Form.names, namesOfBody, Form.piecesOf, List.mem_flatMap, List.mem_filter,
    List.mem_map, decide_eq_true_eq]
  constructor
  next =>
    rintro ⟨body, found, ⟨piece, inside, named⟩, nonempty⟩
    exact ⟨nonempty, piece, ⟨body, found, inside⟩, named⟩
  next =>
    rintro ⟨nonempty, piece, ⟨body, found, inside⟩, named⟩
    exact ⟨body, found, ⟨piece, inside, named⟩, nonempty⟩

theorem mem_patternPieces_iff : piece ∈ patternPieces code ↔
    ∃ form, form ≠ Form.name ∧ piece ∈ form.piecesOf (Comment.erase code) := by
  simp only [patternPieces, List.mem_flatMap, List.mem_cons, List.not_mem_nil, or_false]
  constructor
  next =>
    rintro ⟨form, rfl | rfl, inside⟩
    next => exact ⟨_, by simp, inside⟩
    next => exact ⟨_, by simp, inside⟩
  next =>
    rintro ⟨form, other, inside⟩
    exact ⟨form, by cases form <;> simp_all, inside⟩

-- What a plain declaration declares is a word.
theorem isWord_of_name (member : name ∈ Form.name.names code) :
    name ≠ [] ∧ ∀ c ∈ name, isWord c = true := by
  obtain ⟨body, found, named⟩ := List.mem_flatMap.1 member
  obtain ⟨previous, place, rest, read⟩ := Recogniser.exists_read_of_mem_values found
  obtain ⟨-, behind, -, declared⟩ := Form.exists_afterKeyword? read
  have word : body ≠ [] ∧ ∀ c ∈ body, isWord c = true := by
    rcases cases_of_name? declared with ⟨-, nonempty, letters, -⟩ | ⟨_, _, _, taken, -⟩
    next => exact ⟨nonempty, letters⟩
    next => exact ⟨(eq_of_word? taken).1, (eq_of_word? taken).2.1⟩
  rw [namesOfBody_of_isWord word.1 word.2, List.mem_singleton] at named
  exact named ▸ word

theorem mem_declaredNames_cases : name ∈ declaredNames code ↔
    name ∈ Form.name.names (Comment.erase code) ∨
      name ≠ [] ∧ ∃ piece ∈ patternPieces code, nameOfPiece piece = name := by
  rw [mem_declaredNames_iff]
  constructor
  next =>
    rintro ⟨form, member⟩
    by_cases plain : form = .name
    next => exact .inl (plain ▸ member)
    next =>
      obtain ⟨nonempty, piece, inside, named⟩ := Form.mem_names_iff.1 member
      exact .inr ⟨nonempty, piece, mem_patternPieces_iff.2 ⟨form, plain, inside⟩, named⟩
  next =>
    rintro (member | ⟨nonempty, piece, member, named⟩)
    next => exact ⟨.name, member⟩
    next =>
      obtain ⟨form, -, inside⟩ := mem_patternPieces_iff.1 member
      exact ⟨form, Form.mem_names_iff.2 ⟨nonempty, piece, inside, named⟩⟩

theorem tidy_of_mem_declaredNames (member : name ∈ declaredNames code) :
    name ≠ [] ∧ trim name = name ∧ ∀ c ∈ name, c ≠ ',' ∧ endsPiece c = false := by
  obtain ⟨form, found⟩ := mem_declaredNames_iff.1 member
  obtain ⟨nonempty, piece, inside, rfl⟩ := Form.mem_names_iff.1 found
  obtain ⟨body, -, split⟩ := List.mem_flatMap.1 inside
  rw [nameOfPiece_eq] at nonempty ⊢
  refine ⟨nonempty, trim_trim _, ?_⟩
  intro c letter
  have early : c ∈ head piece := (trim_isInfix _).subset letter
  have within : c ∈ piece := (List.takeWhile_prefix _).subset early
  exact ⟨ne_of_mem_of_not_mem within (not_mem_of_mem_splitAt split), plain_head early⟩

theorem forall_isWord_iff : (∀ name ∈ declaredNames code, ∀ c ∈ name, isWord c = true) ↔
    ∀ piece ∈ patternPieces code, ∃ word, LeadsWith piece word := by
  simp only [leadsWith_iff]
  constructor
  next =>
    intro words piece member
    by_cases empty : nameOfPiece piece = []
    next => simp [empty]
    next => exact words _ (mem_declaredNames_cases.2 (.inr ⟨empty, piece, member, rfl⟩))
  next =>
    intro leads name member
    rcases mem_declaredNames_cases.1 member with plain | ⟨-, piece, inside, rfl⟩
    next => exact (isWord_of_name plain).2
    next => exact leads piece inside

/-- A declared name is not empty, has no padding around it and no comma, colon or equals sign. All
names are words just if every piece of a pattern leads with one, which is the name that it declares.
-/
theorem declaredNames_words (code : Text) :
    (∀ name ∈ declaredNames code,
        name ≠ [] ∧ trim name = name ∧ ∀ c ∈ name, c ≠ ',' ∧ endsPiece c = false) ∧
      ((∀ name ∈ declaredNames code, ∀ c ∈ name, isWord c = true) ↔
        ∀ piece ∈ patternPieces code, ∃ word, LeadsWith piece word) ∧
      ∀ piece ∈ patternPieces code, ∀ word, LeadsWith piece word →
        word = [] ∨ word ∈ declaredNames code := by
  refine ⟨fun name => tidy_of_mem_declaredNames, forall_isWord_iff, ?_⟩
  intro piece member word leads
  by_cases empty : word = []
  next => exact .inl empty
  next =>
    have named := nameOfPiece_of_leadsWith leads
    exact .inr (mem_declaredNames_cases.2 (.inr ⟨empty, piece, member, named⟩))

theorem declaredNames_words_of_renamed :
    let code : Text := "let { a :b, c = [1], } = x; // d\nconst [é, , = 2] = y; var f"
    let pieces : List Text := [" a :b", " c = [1]", " ", "é", " ", " = 2"]
    let word : Text := "a"
    patternPieces code = pieces ∧ LeadsWith " a :b" word ∧ word ∈ declaredNames code ∧
      ∀ name ∈ declaredNames code, ∀ c ∈ name, isWord c = true := by
  intro code pieces word
  have split : patternPieces code = pieces := by decide +kernel
  have letters : ∀ piece ∈ patternPieces code, (nameOfPiece piece).all isWord = true := by
    decide +kernel
  have leads : ∀ piece ∈ patternPieces code, LeadsWith piece (nameOfPiece piece) :=
    fun piece member => leadsWith_nameOfPiece (List.all_eq_true.1 (letters piece member))
  have member : (" a :b" : Text) ∈ patternPieces code := by simp [split, pieces]
  have first : LeadsWith " a :b" word := leads _ member
  obtain ⟨-, words, named⟩ := declaredNames_words code
  refine ⟨split, first, (named _ member word first).resolve_left (by decide), ?_⟩
  exact words.2 fun piece inside => ⟨_, leads piece inside⟩

theorem declaredNames_not_words :
    let wild (code : Text) : Prop := ¬ ∀ name ∈ declaredNames code, name.all isWord = true
    wild "let { a, ...rest } = props;" ∧ wild "let [first, ...others] = list;" ∧
      wild "let [[a], b] = pair;" ∧
      declaredNames "let { a, ...rest } = props;" = ["a", "...rest"] := by
  decide +kernel

end Names

end Inlay.Script
