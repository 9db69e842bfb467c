import Inlay.Proofs.Script.Statement

set_option autoImplicit false

namespace Inlay.Script

open Text Markup

def Form.Opens : Form → Char → Prop
  | .name, c => isWord c = true
  | .object, c => c = '{'
  | .array, c => c = '['

variable {c : Char} {text rest body word : Text} {form : Form} {previous : Option Char}

section Opening

theorem Form.opens_of_body? {result : Text × Text} (found : form.body? (c :: text) = some result) :
    form.Opens c := by
  obtain ⟨body, rest⟩ := result
  cases form with
  | name =>
    by_contra symbol
    rw [Opens, Bool.not_eq_true] at symbol
    simp [body?, name?, word?, symbol] at found
  | object =>
    have read : pattern? '{' '}' (c :: text) = some (body, rest) := found
    obtain ⟨-, -, whole⟩ := pattern?_eq_some_iff.1 read
    exact (List.cons.inj whole).1
  | array =>
    have read : pattern? '[' ']' (c :: text) = some (body, rest) := found
    obtain ⟨-, -, whole⟩ := pattern?_eq_some_iff.1 read
    exact (List.cons.inj whole).1

theorem Form.eq_of_opens {other : Form} (first : form.Opens c) (second : other.Opens c) :
    form = other := by
  have brace : isWord '{' = false := isWord_of_mem_signs (by decide)
  have bracket : isWord '[' = false := isWord_of_mem_signs (by decide)
  cases form <;> cases other <;> simp_all [Opens]

theorem Target.exists_opening (target : Target) :
    ∃ c text, target.text = c :: text ∧ target.form.Opens c := by
  cases target with
  | name word =>
    obtain ⟨c, text, whole⟩ := List.exists_cons_of_ne_nil word.nonempty
    exact ⟨c, text, whole, word.letters c (by simp [whole])⟩
  | object => exact ⟨_, _, rfl, rfl⟩
  | array => exact ⟨_, _, rfl, rfl⟩

theorem Form.not_isBlank_of_opens (opens : form.Opens c) : isBlank c = false := by
  rw [Bool.eq_false_iff]
  intro blank
  cases form with
  | name =>
    rw [Opens, isWord_of_isBlank blank] at opens
    cases opens
  | object => subst opens; revert blank; decide
  | array => subst opens; revert blank; decide

end Opening

section Front

theorem endOfName?_append_cons {space : Text} (blank : ∀ c ∈ space, isBlank c = true)
    (closer : c ∈ Form.closers .name) : endOfName? (space ++ c :: rest) = some rest := by
  have solid := (Form.not_letter_of_closer closer).2
  have sign : c = '=' ∨ c = ';' := by simpa [Form.closers] using closer
  rw [endOfName?, List.dropWhile_append_of_pos blank, List.dropWhile_cons_of_neg (by simp [solid])]
  simp [sign]

theorem pattern?_closed (opening closing : Char) (nonempty : body ≠ []) (apart : closing ∉ body)
    (rest : Text) :
    pattern? opening closing (opening :: (body ++ [closing]) ++ rest) = some (body, rest) :=
  pattern?_eq_some_iff.2 ⟨nonempty, apart, by simp⟩

namespace Statement

variable (statement : Statement)

-- What follows the find is the value, or the whole ending behind a pattern.
theorem exists_body? (rest : Text) : ∃ after, IsQuiet after ∧
    statement.target.form.body? (statement.target.text ++ (statement.ending ++ rest)) =
      some (statement.target.body, after ++ rest) := by
  cases target : statement.target with
  | name word =>
    obtain ⟨c, after, whole, closer, quiet⟩ := statement.exists_ending
    have symbol (d : Char) (first : d ∈ (statement.ending ++ rest).head?) : isWord d = false :=
      statement.symbol_ending (by simpa [whole] using first)
    have read := word?_append_of_symbol word.nonempty word.letters symbol
    have ended : endOfName? (statement.ending ++ rest) = some (after ++ rest) := by
      rw [whole, List.append_assoc, List.cons_append]
      exact endOfName?_append_cons (fun _ => Layout.isBlank) closer
    refine ⟨after, quiet, ?_⟩
    rw [Target.form, Target.text, Target.body, Form.body?, name?_of_word? read, ended]
    rfl
  | object items nonempty =>
    refine ⟨statement.ending, statement.ending_quiet, ?_⟩
    have absent : '}' ∉ writeItems items := not_mem_writeItems (by decide) items
    exact pattern?_closed '{' '}' (writeItems_ne_nil nonempty) absent _
  | array items nonempty =>
    refine ⟨statement.ending, statement.ending_quiet, ?_⟩
    have absent : ']' ∉ writeItems items := not_mem_writeItems (by decide) items
    exact pattern?_closed '[' ']' (writeItems_ne_nil nonempty) absent _

theorem afterKeyword?_text (rest : Text) : afterKeyword? (statement.text ++ rest) =
    some (statement.target.text ++ (statement.ending ++ rest)) := by
  obtain ⟨c, gap, split⟩ := List.exists_cons_of_ne_nil statement.gapped
  obtain ⟨d, more, opened, opens⟩ := statement.target.exists_opening
  have blank : ∀ e ∈ c :: gap, isBlank e = true := by
    intro e member
    rw [← split] at member
    exact Layout.isBlank member
  have whole : statement.text ++ rest = statement.keyword.text ++
      c :: (gap ++ (statement.target.text ++ (statement.ending ++ rest))) := by
    simp [text, split]
  have solid : ¬ isBlank d = true := by simp [Form.not_isBlank_of_opens opens]
  obtain ⟨here, later⟩ := List.forall_mem_cons.1 blank
  rw [whole, afterKeyword?_append_cons statement.keyword.known here,
    List.dropWhile_append_of_pos later, opened, List.cons_append,
    List.dropWhile_cons_of_neg solid]

theorem read_text (starts : atWordStart previous = true) (rest : Text) :
    form.recogniser.read previous (statement.text ++ rest) =
      form.body? (statement.target.text ++ (statement.ending ++ rest)) :=
  Form.read_of_afterKeyword? starts (statement.afterKeyword?_text rest)

-- Behind the keyword only the statement's own form can be read.
theorem read_eq_none (other : form ≠ statement.target.form) (starts : atWordStart previous = true)
    (rest : Text) : form.recogniser.read previous (statement.text ++ rest) = none := by
  obtain ⟨c, text, opened, opens⟩ := statement.target.exists_opening
  rw [statement.read_text starts, opened, List.cons_append, Option.eq_none_iff_forall_ne_some]
  intro result found
  exact other (Form.eq_of_opens (Form.opens_of_body? found) opens)

theorem behind_keyword_quiet :
    IsQuiet (statement.gap.text ++ (statement.target.text ++ statement.ending)) := by
  refine IsQuiet.after_symbols (fun _ => Layout.symbol) ?_
  exact statement.target.quiet.append statement.ending_quiet fun c => statement.symbol_ending

end Statement

end Front

section Search

-- Where no keyword begins the character before does not matter.
theorem Form.read_of_symbol (edge : ∀ c ∈ text.head?, isWord c = false) :
    form.recogniser.read previous text = none := by
  apply Form.read_eq_none
  intro keyword known front
  obtain ⟨c, word, rfl⟩ := List.exists_cons_of_ne_nil (ne_nil_of_mem_keywords known)
  obtain ⟨rest, rfl⟩ := front
  have symbol : isWord c = false := edge c rfl
  exact symbol_not_mem_keyword known symbol List.mem_cons_self

theorem Form.hasWord_of_read {front back : Text} (edge : ∀ c ∈ rest.head?, isWord c = false)
    (nonempty : back ≠ [])
    (found : form.recogniser.read (front.getLast?.or previous) (back ++ rest) ≠ none) :
    ∃ keyword ∈ keywords, HasWord keyword (front ++ back) := by
  obtain ⟨⟨body, behind⟩, found⟩ := Option.ne_none_iff_exists'.1 found
  obtain ⟨starts, _, begun, -⟩ := Form.exists_afterKeyword? found
  obtain ⟨keyword, known, c, gap, blank, whole, -⟩ := eq_of_afterKeyword? begun
  have symbol := isWord_of_isBlank blank
  have apart := atWordStart_iff.1 (atWordStart_of_or starts)
  refine ⟨keyword, known, ?_⟩
  rcases List.append_eq_append_iff.1 whole with ⟨more, longer, rfl⟩ | ⟨more, rfl, split⟩
  -- A keyword that runs over the end would do so with a character of a word.
  next =>
    cases more with
    | nil =>
      rw [List.append_nil] at longer
      exact ⟨front, [], by rw [longer, List.append_nil], apart, by simp⟩
    | cons d more =>
      have symbol : isWord d = false := edge d rfl
      exact absurd (by simp [longer]) (symbol_not_mem_keyword known symbol)
  next =>
    refine ⟨front, more, rfl, apart, ?_⟩
    intro d first
    cases more with
    | nil => cases first
    | cons e more =>
      obtain ⟨rfl, -⟩ := List.cons.inj split
      obtain rfl : c = d := by simpa using first
      exact symbol

theorem Form.values_quiet (quiet : IsQuiet text) (edge : ∀ c ∈ rest.head?, isWord c = false)
    (previous other : Option Char) :
    (form.recogniser.pieces previous (text ++ rest)).values =
      (form.recogniser.pieces other rest).values := by
  have same : form.recogniser.read (text.getLast?.or previous) rest =
      form.recogniser.read other rest := by
    rw [Form.read_of_symbol edge, Form.read_of_symbol edge]
  rw [← form.recogniser.pieces_congr same]
  apply Recogniser.values_of_missing
  intro front back split nonempty
  by_contra found
  obtain ⟨keyword, known, has⟩ := Form.hasWord_of_read edge nonempty found
  exact quiet keyword known (split ▸ has)

-- Inside a word nothing begins.
theorem Form.values_word (letters : ∀ c ∈ word, isWord c = true)
    (missing : form.recogniser.read previous (word ++ rest) = none) :
    (form.recogniser.pieces previous (word ++ rest)).values =
      (form.recogniser.pieces (word.getLast?.or previous) rest).values := by
  apply Recogniser.values_of_missing
  intro front back split nonempty
  cases last : front.getLast? with
  | none =>
    obtain rfl := List.getLast?_eq_none_iff.1 last
    rw [List.nil_append] at split
    rwa [Option.none_or, ← split]
  | some c =>
    have letter : isWord c = true := by
      refine letters c ?_
      rw [split]
      exact List.mem_append_left _ (List.mem_of_getLast? last)
    simp [recogniser, atWordStart, letter]

theorem Form.values_statement (statement : Statement) (starts : atWordStart previous = true)
    (edge : ∀ c ∈ rest.head?, isWord c = false) (other : Option Char) :
    (form.recogniser.pieces previous (statement.text ++ rest)).values =
      (if form = statement.target.form then [statement.target.body] else []) ++
        (form.recogniser.pieces other rest).values := by
  by_cases same : form = statement.target.form
  next =>
    obtain ⟨after, quiet, read⟩ := statement.exists_body? rest
    subst same
    rw [← statement.read_text starts] at read
    rw [Recogniser.pieces_of_read _ read, Pieces.values_find, Form.values_quiet quiet edge _ other,
      if_pos rfl]
    rfl
  next =>
    have missing := statement.read_eq_none same starts rest
    rw [Statement.text, List.append_assoc] at missing ⊢
    rw [Form.values_word (isWord_of_mem_keyword statement.keyword.known) missing,
      Form.values_quiet statement.behind_keyword_quiet edge _ other, if_neg same]
    rfl

theorem Form.values_writeStatements (statements : List Statement)
    (starts : atWordStart previous = true) :
    (form.recogniser.pieces previous (writeStatements statements)).values =
      statements.flatMap fun statement =>
        if form = statement.target.form then [statement.target.body] else [] := by
  induction statements generalizing previous with
  | nil => rw [writeStatements, List.map_nil, join, Recogniser.pieces_nil]; rfl
  | cons statement statements ih =>
    rw [List.flatMap_cons]
    by_cases alone : statements = []
    next =>
      subst alone
      have single : (form.recogniser.pieces previous (statement.text ++ [])).values = _ :=
        Form.values_statement statement starts (by simp) none
      simpa [writeStatements, join, Pieces.values] using single
    next =>
      have symbol : isWord '\n' = false := isWord_of_mem_signs (by decide)
      have line : form.recogniser.read none ('\n' :: writeStatements statements) = none :=
        Form.read_of_symbol (by simpa using symbol)
      rw [writeStatements, List.map_cons, join_cons _ _ (by simpa using alone), List.append_assoc,
        ← writeStatements, List.singleton_append,
        Form.values_statement statement starts (by simpa using symbol) none,
        Recogniser.pieces_cons_of_none _ line, Pieces.values_skip,
        ih (by simp [atWordStart, symbol])]

end Search

theorem Form.mem_names_statements {name : Text} {statements : List Statement} :
    name ∈ form.names (writeStatements statements) ↔
      ∃ statement ∈ statements, form = statement.target.form ∧ name ∈ statement.target.names := by
  rw [Form.names, Form.values_writeStatements statements rfl, List.flatMap_assoc, List.mem_flatMap]
  refine exists_congr fun statement => and_congr_right fun _ => ?_
  by_cases same : form = statement.target.form
  next => simp [same, statement.target.namesOfBody_body]
  next => simp [same]

theorem erase_writeStatements (statements : List Statement) :
    Comment.erase (writeStatements statements) = writeStatements statements := by
  have absent : '/' ∉ writeStatements statements := by
    intro member
    rcases exists_mem_of_mem_join member with line | ⟨part, among, inside⟩
    next => revert line; decide
    next =>
      obtain ⟨statement, -, rfl⟩ := List.mem_map.1 among
      exact statement.no_slash inside
  exact Comment.erase_of_plain (fun part => absent (part.subset List.mem_cons_self))
    fun part => absent (part.subset List.mem_cons_self)

/-- Of statements that are written one behind another, exactly the names that they declare are
found. -/
theorem mem_declaredNames_statements (statements : List Statement) (name : Text) :
    name ∈ declaredNames (writeStatements statements) ↔
      ∃ statement ∈ statements, name ∈ statement.target.names := by
  rw [mem_declaredNames_iff, erase_writeStatements]
  simp only [Form.mem_names_statements]
  constructor
  next =>
    rintro ⟨_, statement, among, -, member⟩
    exact ⟨statement, among, member⟩
  next =>
    rintro ⟨statement, among, member⟩
    exact ⟨_, statement, among, rfl, member⟩

theorem mem_declaredNames_statements_of_outlet :
    let code : Text := "let outlet = { x; };\nconst { é :to, b=1; } = letter;\nvar [\tc];"
    let names : List Text := ["outlet", "é", "b", "c"]
    ∃ statements, writeStatements statements = code ∧
      ∀ name, name ∈ declaredNames code ↔ name ∈ names := by
  intro code names
  let none' : Layout := ⟨[], by simp⟩
  let space : Layout := ⟨[' '], by simp⟩
  let tab : Layout := ⟨['\t'], by simp⟩
  let outlet : Name := ⟨"outlet", by decide, List.all_eq_true.1 (by decide), by decide⟩
  let é : Name := ⟨"é", by decide, List.all_eq_true.1 (by decide), by decide⟩
  let to' : Name := ⟨"to", by decide, List.all_eq_true.1 (by decide), by decide⟩
  let b : Name := ⟨"b", by decide, List.all_eq_true.1 (by decide), by decide⟩
  let c : Name := ⟨"c", by decide, List.all_eq_true.1 (by decide), by decide⟩
  let block : Expression := ⟨"{ x; }", by decide, by decide⟩
  let letter : Expression := ⟨"letter", by decide, by decide⟩
  let one : Literal := ⟨⟨"1;", by decide, by decide⟩, by simp⟩
  let plain : Statement := ⟨⟨"let", by decide⟩, space, by decide, .name outlet, space,
    some ⟨space, block, none'⟩⟩
  let object : Statement := ⟨⟨"const", by decide⟩, space, by decide,
    .object [⟨⟨space, é, space⟩, some ⟨none', to', none'⟩, none⟩,
      ⟨⟨space, b, none'⟩, none, some ⟨none', one, space⟩⟩] (by simp),
    space, some ⟨space, letter, none'⟩⟩
  let array : Statement := ⟨⟨"var", by decide⟩, space, by decide,
    .array [⟨⟨tab, c, none'⟩, none, none⟩] (by simp), none', none⟩
  have written : writeStatements [plain, object, array] = code := by decide
  refine ⟨_, written, ?_⟩
  intro name
  rw [← written, mem_declaredNames_statements]
  simp [plain, object, array, Target.names, outlet, é, b, c, names, or_assoc]

end Inlay.Script
