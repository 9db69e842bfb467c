import Inlay.Import
import Inlay.Proofs.Config.Form
import Inlay.Proofs.Text.Search

set_option autoImplicit false

namespace Inlay.Import

open Text

def IsGap (text : Text) : Prop :=
  text ≠ [] ∧ ∀ c ∈ text, isBlank c = true

-- Behind a path's stem its suffix, a quote and the semicolon end the statement.
def EndsStatement (suffix text : Text) : Prop :=
  ∃ quote, isQuote quote = true ∧ suffix ++ [quote, ';'] <+: text

structure Spelling where
  beforeName : Text
  behindName : Text
  beforePath : Text
  opened : Char
  stem : Text
  closed : Char

namespace Spelling

def write (suffix name : Text) (spelling : Spelling) : Text :=
  "import".toList ++ spelling.beforeName ++ name ++ spelling.behindName ++ "from".toList ++
    spelling.beforePath ++ spelling.opened :: spelling.stem ++ suffix ++ [spelling.closed, ';']

structure Proper (suffix name : Text) (spelling : Spelling) : Prop where
  name_ne_nil : name ≠ []
  name_isWord : ∀ c ∈ name, isWord c = true
  beforeName : IsGap spelling.beforeName
  behindName : IsGap spelling.behindName
  beforePath : IsGap spelling.beforePath
  opened : isQuote spelling.opened = true
  closed : isQuote spelling.closed = true
  stem_ne_nil : spelling.stem ≠ []
  stem_line : '\n' ∉ spelling.stem
  first : ∀ front back, spelling.stem = front ++ back → front ≠ [] → back ≠ [] →
    ¬ EndsStatement suffix (back ++ suffix ++ [spelling.closed, ';'])

end Spelling

structure IsSpelled (suffix : Text) (reference : Import) (spelling : Spelling) : Prop where
  statement : reference.statement = spelling.write suffix reference.name
  blockPath : reference.blockPath = spelling.stem ++ suffix
  proper : spelling.Proper suffix reference.name

def IsPlain (suffix : Text) (reference : Import) : Prop :=
  ∃ spelling, reference.IsSpelled suffix spelling ∧ spelling.opened = spelling.closed ∧
    ∀ c ∈ spelling.stem, isQuote c = false

variable {suffix document text rest name stem : Text} {reference : Import} {spelling : Spelling}

theorem close?_eq_some_iff : close? suffix text = some rest ↔
    ∃ quote, isQuote quote = true ∧ text = suffix ++ quote :: ';' :: rest := by
  unfold close?
  split
  next quote behind begun =>
    rw [after?_eq_some_iff] at begun
    subst begun
    by_cases marked : isQuote quote = true <;> simp [marked]
  next other =>
    refine ⟨nofun, ?_⟩
    rintro ⟨quote, -, rfl⟩
    exact absurd (after?_append _ _) (other quote rest)

theorem close?_ne_none_of_endsStatement (ends : EndsStatement suffix text) (rest : Text) :
    close? suffix (text ++ rest) ≠ none := by
  obtain ⟨quote, marked, behind, rfl⟩ := ends
  have found : close? suffix (suffix ++ [quote, ';'] ++ behind ++ rest) = some (behind ++ rest) :=
    close?_eq_some_iff.2 ⟨quote, marked, by simp⟩
  rw [found]
  exact Option.some_ne_none _

theorem eq_of_stem? (found : stem? suffix text = some (stem, rest)) :
    ∃ quote, isQuote quote = true ∧ text = stem ++ suffix ++ [quote, ';'] ++ rest ∧
      stem ≠ [] ∧ '\n' ∉ stem ∧
      ∀ front back, stem = front ++ back → front ≠ [] → back ≠ [] →
        ¬ EndsStatement suffix (back ++ suffix ++ [quote, ';']) := by
  induction text generalizing stem with
  | nil => simp [stem?] at found
  | cons c text ih =>
    unfold stem? at found
    split at found
    next => cases found
    next other =>
      split at found
      next behind closed =>
        cases found
        obtain ⟨quote, marked, rfl⟩ := close?_eq_some_iff.1 closed
        refine ⟨quote, marked, by simp, by simp, by simpa using Ne.symm other, ?_⟩
        -- A stem of one character has no shorter one.
        intro front back split nonempty more
        have lengths := congrArg List.length split
        have := List.length_pos_iff.2 nonempty
        have := List.length_pos_iff.2 more
        simp only [List.length_singleton, List.length_append] at lengths
        omega
      next missing =>
        simp only [Option.map_eq_some_iff, Prod.exists, Prod.mk.injEq] at found
        obtain ⟨inner, behind, read, rfl, rfl⟩ := found
        obtain ⟨quote, marked, rfl, -, line, first⟩ := ih read
        refine ⟨quote, marked, by simp, by simp, by simp [line, Ne.symm other], ?_⟩
        intro front back split nonempty more ends
        obtain ⟨d, front, rfl⟩ := List.exists_cons_of_ne_nil nonempty
        obtain ⟨rfl, rfl⟩ := List.cons.inj split
        by_cases start : front = []
        next =>
          subst start
          exact close?_ne_none_of_endsStatement ends behind missing
        next => exact first front back rfl start more ends

theorem isGap_of_skipBlanks? (skipped : skipBlanks? text = some rest) :
    ∃ gap, IsGap gap ∧ text = gap ++ rest := by
  obtain ⟨gap, nonempty, blank, whole⟩ := eq_of_skipBlanks? skipped
  exact ⟨gap, ⟨nonempty, blank⟩, whole⟩

theorem exists_spelling_of_read? (found : read? suffix text = some ((name, stem), rest)) :
    ∃ spelling : Spelling, text = spelling.write suffix name ++ rest ∧ spelling.stem = stem ∧
      spelling.Proper suffix name := by
  simp only [read?, Option.bind_eq_bind, Option.bind_eq_some_iff, Prod.exists] at found
  obtain ⟨_, begun, _, skipped, word, _, named, _, parted, _, keyword, _, led, final⟩ := found
  obtain ⟨beforeName, gap, rfl⟩ := isGap_of_skipBlanks? skipped
  obtain ⟨nonempty, letters, rfl⟩ := eq_of_word? named
  obtain ⟨behindName, gap', rfl⟩ := isGap_of_skipBlanks? parted
  obtain ⟨beforePath, gap'', rfl⟩ := isGap_of_skipBlanks? led
  rw [after?_eq_some_iff] at begun keyword
  subst begun
  subst keyword
  split at final
  next => cases final
  next opened inside =>
    split at final
    next marked =>
      simp only [Option.bind_eq_some_iff, Prod.exists, Option.pure_def, Option.some.injEq,
        Prod.mk.injEq] at final
      obtain ⟨_, _, read, ⟨rfl, rfl⟩, rfl⟩ := final
      obtain ⟨closed, ending, rfl, inner, line, first⟩ := eq_of_stem? read
      refine ⟨⟨beforeName, behindName, beforePath, opened, _, closed⟩, ?_, rfl, ?_⟩
      next =>
        unfold Spelling.write
        generalize "import".toList = keyword
        generalize "from".toList = preposition
        simp
      next =>
        exact
          { name_ne_nil := nonempty
            name_isWord := letters
            beforeName := gap
            behindName := gap'
            beforePath := gap''
            opened := marked
            closed := ending
            stem_ne_nil := inner
            stem_line := line
            first := first }
    next => cases final

theorem eq_of_form_read {previous : Option Char}
    (found : (form document suffix).read previous text = some (reference, rest)) :
    text = reference.statement ++ rest ∧ (∃ spelling, reference.IsSpelled suffix spelling) ∧
      reference.path = (Path.resolve document reference.blockPath).toText := by
  simp only [form, Option.map_eq_some_iff, Prod.exists, Prod.mk.injEq] at found
  obtain ⟨name, stem, rest, read, rfl, rfl⟩ := found
  obtain ⟨spelling, rfl, rfl, proper⟩ := exists_spelling_of_read? read
  have taken : (spelling.write suffix name ++ rest).take
      ((spelling.write suffix name ++ rest).length - rest.length) = spelling.write suffix name := by
    simp
  refine ⟨by simp only [taken], ⟨spelling, ⟨taken, rfl, proper⟩⟩, rfl⟩

section Quotes

theorem isQuote_iff {c : Char} : isQuote c = true ↔ c = '"' ∨ c = '\'' := by
  simp [isQuote]

-- A class of characters without quotes leaves none in a text of the class.
theorem filter_isQuote_of_class {p : Char → Bool} (double : p '"' = false) (single : p '\'' = false)
    (inside : ∀ c ∈ text, p c = true) : text.filter isQuote = [] := by
  rw [List.filter_eq_nil_iff]
  intro c member quote
  have allowed := inside c member
  rcases isQuote_iff.1 quote with rfl | rfl
  next => simp [double] at allowed
  next => simp [single] at allowed

theorem Spelling.Proper.filter_isQuote (proper : spelling.Proper suffix name)
    (unquoted : suffix.filter isQuote = []) :
    (spelling.write suffix name).filter isQuote =
      spelling.opened :: (spelling.stem.filter isQuote ++ [spelling.closed]) := by
  have blank {gap : Text} (blanks : IsGap gap) : gap.filter isQuote = [] :=
    filter_isQuote_of_class (by decide) (by decide) blanks.2
  have word : name.filter isQuote = [] :=
    filter_isQuote_of_class (by decide) (by decide) proper.name_isWord
  have begins : "import".toList.filter isQuote = [] := by decide
  have leads : "from".toList.filter isQuote = [] := by decide
  have semicolon : isQuote ';' = false := by decide
  unfold Spelling.write
  generalize "import".toList = keyword at begins ⊢
  generalize "from".toList = preposition at leads ⊢
  simp [begins, leads, blank proper.beforeName, blank proper.behindName, blank proper.beforePath,
    word, unquoted, proper.opened, proper.closed, semicolon]

theorem filter_isQuote_of_admits (admitted : Form.doubleSuffix.admits suffix = true) :
    suffix.filter isQuote = [] := by
  refine filter_isQuote_of_class (p := fun c => decide (Form.MayHave c)) (by decide) (by decide) ?_
  intro c member
  exact decide_eq_true (Form.mayHave_of_admits admitted c member)

theorem filter_isQuote_of_isPlain (plain : reference.IsPlain suffix)
    (unquoted : suffix.filter isQuote = []) :
    ∃ quote, reference.statement.filter isQuote = [quote, quote] := by
  obtain ⟨spelling, spelled, same, inside⟩ := plain
  have stem : spelling.stem.filter isQuote = [] :=
    List.filter_eq_nil_iff.2 fun c member => by simp [inside c member]
  refine ⟨spelling.closed, ?_⟩
  rw [spelled.statement, spelled.proper.filter_isQuote unquoted, stem, same]
  rfl

theorem isPlain_of_filter_isQuote {quote : Char} (spelled : reference.IsSpelled suffix spelling)
    (unquoted : suffix.filter isQuote = [])
    (quotes : reference.statement.filter isQuote = [quote, quote]) : reference.IsPlain suffix := by
  rw [spelled.statement, spelled.proper.filter_isQuote unquoted] at quotes
  obtain ⟨rfl, behind⟩ := List.cons.inj quotes
  cases inside : spelling.stem.filter isQuote with
  | nil =>
    rw [inside] at behind
    obtain ⟨same, -⟩ := List.cons.inj behind
    refine ⟨spelling, spelled, same.symm, ?_⟩
    intro c member
    simpa using List.filter_eq_nil_iff.1 inside c member
  | cons first others => simp [inside] at behind

end Quotes

/-- A scan finds the text's statements in order and nothing of one in another. Each is spelled as a
statement, up to the first end of one; its path is in one kind of quotes and has none in it just
when two quotes, the same twice, are all that stand in the statement. -/
theorem scan_statements (document text : Text)
    (admitted : Form.doubleSuffix.admits suffix = true) :
    ((form document suffix).pieces none text).write Import.statement = text ∧
      ∀ reference ∈ scan suffix document text,
        (∃ spelling, reference.IsSpelled suffix spelling) ∧
        reference.path = (Path.resolve document reference.blockPath).toText ∧
        (reference.IsPlain suffix ↔
          ∃ quote, reference.statement.filter isQuote = [quote, quote]) := by
  have unquoted := filter_isQuote_of_admits admitted
  refine ⟨(form document suffix).write_pieces _ (fun found => (eq_of_form_read found).1) none text, ?_⟩
  intro reference member
  obtain ⟨_, _, _, found⟩ := Recogniser.exists_read_of_mem_values member
  obtain ⟨-, ⟨spelling, spelled⟩, path⟩ := eq_of_form_read found
  refine ⟨⟨spelling, spelled⟩, path, fun plain => filter_isQuote_of_isPlain plain unquoted, ?_⟩
  rintro ⟨quote, quotes⟩
  exact isPlain_of_filter_isQuote spelled unquoted quotes

theorem scan_statements_of_other_quotes :
    let suffix : Text := ".svelte.xblock"
    let text : Text := "<i title='\"'>import A from './it.svelte.xblock;.svelte.xblock';</i>"
    Form.doubleSuffix.admits suffix = true ∧ (scan suffix "/src/App.svelte" text).length = 1 ∧
      ∀ reference ∈ scan suffix "/src/App.svelte" text, reference.IsPlain suffix := by
  intro suffix text
  have admitted : Form.doubleSuffix.admits suffix = true := by decide +kernel
  refine ⟨admitted, by decide +kernel, ?_⟩
  intro reference member
  obtain ⟨-, -, plain⟩ := (scan_statements "/src/App.svelte" text admitted).2 reference member
  have quotes : ∀ reference ∈ scan suffix "/src/App.svelte" text,
      reference.statement.filter isQuote = ['\'', '\''] := by decide +kernel
  exact plain.2 ⟨'\'', quotes reference member⟩

theorem scan_not_isPlain :
    let suffix : Text := ".svelte.xblock"
    let misreads (text : Text) : Prop :=
      ∃ reference ∈ scan suffix "/src/App.svelte" text, ¬ reference.IsPlain suffix
    misreads "import A from \"x\"; import B from \"./b.svelte.xblock\";" ∧
      misreads "import A from \"./a.svelte.xblock';" := by
  intro suffix misreads
  have unquoted : suffix.filter isQuote = [] := by decide
  have misread {text : Text} (found : ∃ reference ∈ scan suffix "/src/App.svelte" text,
      reference.statement.filter isQuote ≠ ['"', '"'] ∧
        reference.statement.filter isQuote ≠ ['\'', '\'']) : misreads text := by
    obtain ⟨reference, inside, double, single⟩ := found
    refine ⟨reference, inside, ?_⟩
    intro plain
    obtain ⟨quote, same⟩ := filter_isQuote_of_isPlain plain unquoted
    have marked : quote ∈ reference.statement.filter isQuote := by simp [same]
    rcases isQuote_iff.1 (List.mem_filter.1 marked).2 with rfl | rfl
    next => exact double same
    next => exact single same
  exact ⟨misread (by decide +kernel), misread (by decide +kernel)⟩

end Inlay.Import
