import Inlay.Proofs.Import.Statement
import Inlay.Proofs.Text.Cut
import Inlay.Proofs.Text.Split
import Inlay.Proofs.Text.Trim

set_option autoImplicit false

namespace Inlay.Import

open Text

/-- The quote that opens the path closes it, and no quote stands in it. -/
structure Spelling.Plain (name : Text) (spelling : Spelling) : Prop where
  name_ne_nil : name ≠ []
  name_isWord : ∀ c ∈ name, isWord c = true
  beforeName : IsGap spelling.beforeName
  behindName : IsGap spelling.behindName
  beforePath : IsGap spelling.beforePath
  opened : isQuote spelling.opened = true
  closed : spelling.closed = spelling.opened
  stem_ne_nil : spelling.stem ≠ []
  stem_line : '\n' ∉ spelling.stem
  stem_unquoted : ∀ c ∈ spelling.stem, isQuote c = false

structure Free where
  text : Text
  free : ¬ "import".toList <:+: text

inductive Line
  | other (text : Free)
  | statement (front : Free) (name : Text) (spelling : Spelling) (plain : spelling.Plain name)
      (behind : Free)

namespace Line

def text (suffix : Text) : Line → Text
  | other text => text.text
  | statement front name spelling _ behind =>
    front.text ++ (spelling.write suffix name ++ behind.text)

def import? (suffix document : Text) : Line → Option Import
  | other _ => none
  | statement _ name spelling _ _ =>
    some ⟨spelling.write suffix name, name, spelling.stem ++ suffix,
      (Path.resolve document (spelling.stem ++ suffix)).toText⟩

end Line

def writeLines (suffix : Text) (lines : List Line) : Text :=
  join ['\n'] (lines.map (Line.text suffix))

-- A text that cannot complete the word `import` when it follows the word's first characters.
def StartsAnew (text : Text) : Prop :=
  ∀ c ∈ text.head?, c ∉ "import".toList.tail

variable {suffix document text rest name : Text} {previous : Option Char} {spelling : Spelling}

section Reading

theorem close?_eq_none {closed : Char}
    (apart : ¬ EndsStatement suffix (text ++ suffix ++ [closed, ';'])) (rest : Text) :
    close? suffix (text ++ suffix ++ [closed, ';'] ++ rest) = none := by
  rw [Option.eq_none_iff_forall_ne_some]
  intro behind found
  obtain ⟨quote, marked, whole⟩ := close?_eq_some_iff.1 found
  -- The end of a statement is no longer than what stands before `rest`.
  have front : suffix ++ [quote, ';'] <+: text ++ suffix ++ [closed, ';'] ++ rest :=
    ⟨behind, by rw [whole, List.append_assoc]; rfl⟩
  refine apart ⟨quote, marked, List.prefix_of_prefix_length_le front (List.prefix_append _ _) ?_⟩
  simp only [List.length_append, List.length_cons, List.length_nil]
  omega

theorem stem?_append {closed : Char} {stem : Text} (marked : isQuote closed = true)
    (nonempty : stem ≠ []) (line : '\n' ∉ stem)
    (first : ∀ front back, stem = front ++ back → front ≠ [] → back ≠ [] →
      ¬ EndsStatement suffix (back ++ suffix ++ [closed, ';'])) (rest : Text) :
    stem? suffix (stem ++ suffix ++ [closed, ';'] ++ rest) = some (stem, rest) := by
  induction stem with
  | nil => exact absurd rfl nonempty
  | cons c stem ih =>
    rw [List.mem_cons, not_or] at line
    obtain ⟨other, line⟩ := line
    rw [List.cons_append, List.cons_append, List.cons_append, stem?, if_neg (Ne.symm other)]
    by_cases last : stem = []
    next =>
      subst last
      have closes : close? suffix ([] ++ suffix ++ [closed, ';'] ++ rest) = some rest :=
        close?_eq_some_iff.2 ⟨closed, marked, by simp⟩
      rw [closes]
    next =>
      rw [close?_eq_none (first [c] stem rfl (List.cons_ne_nil c []) last)]
      have shorter := ih last line fun front back split _ =>
        first (c :: front) back (by rw [split, List.cons_append]) (List.cons_ne_nil c front)
      rw [shorter, Option.map_some]

theorem skipBlanks?_append {gap : Text} {c : Char} (blanks : IsGap gap) (solid : isBlank c = false)
    (rest : Text) : skipBlanks? (gap ++ c :: rest) = some (c :: rest) := by
  obtain ⟨nonempty, blank⟩ := blanks
  obtain ⟨d, gap, rfl⟩ := List.exists_cons_of_ne_nil nonempty
  obtain ⟨here, later⟩ := List.forall_mem_cons.1 blank
  rw [List.cons_append, skipBlanks?, if_pos here, List.dropWhile_append_of_pos later,
    List.dropWhile_cons_of_neg (by simp [solid])]

theorem isBlank_of_isQuote {c : Char} (marked : isQuote c = true) : isBlank c = false := by
  rcases isQuote_iff.1 marked with rfl | rfl <;> decide

theorem write_append (spelling : Spelling) (suffix name rest : Text) :
    spelling.write suffix name ++ rest =
      "import".toList ++ (spelling.beforeName ++ (name ++ (spelling.behindName ++ ("from".toList ++
        (spelling.beforePath ++ spelling.opened ::
          (spelling.stem ++ suffix ++ [spelling.closed, ';'] ++ rest)))))) := by
  unfold Spelling.write
  generalize "import".toList = keyword
  generalize "from".toList = preposition
  simp

theorem read?_write (proper : spelling.Proper suffix name) (rest : Text) :
    read? suffix (spelling.write suffix name ++ rest) = some ((name, spelling.stem), rest) := by
  obtain ⟨first, letters, letter⟩ := List.exists_cons_of_ne_nil proper.name_ne_nil
  obtain ⟨blank, gap, split⟩ := List.exists_cons_of_ne_nil proper.behindName.1
  have preposition : "from".toList = 'f' :: ['r', 'o', 'm'] := by decide
  have solid : isBlank first = false :=
    isBlank_of_isWord (proper.name_isWord first (by simp [letter]))
  have edge : isWord blank = false :=
    isWord_of_isBlank (proper.behindName.2 blank (by simp [split]))
  have begun (text : Text) :
      skipBlanks? (spelling.beforeName ++ (name ++ text)) = some (name ++ text) := by
    rw [letter, List.cons_append]
    exact skipBlanks?_append proper.beforeName solid _
  have named (text : Text) :
      word? (name ++ (spelling.behindName ++ text)) = some (name, spelling.behindName ++ text) :=
    word?_append_of_symbol proper.name_ne_nil proper.name_isWord (by simpa [split] using edge)
  have parted (text : Text) :
      skipBlanks? (spelling.behindName ++ ("from".toList ++ text)) = some ("from".toList ++ text) := by
    rw [preposition]
    exact skipBlanks?_append proper.behindName (by decide) _
  have led (text : Text) : skipBlanks? (spelling.beforePath ++ spelling.opened :: text) =
      some (spelling.opened :: text) :=
    skipBlanks?_append proper.beforePath (isBlank_of_isQuote proper.opened) text
  have stem : stem? suffix (spelling.stem ++ suffix ++ [spelling.closed, ';'] ++ rest) =
      some (spelling.stem, rest) :=
    stem?_append proper.closed proper.stem_ne_nil proper.stem_line proper.first rest
  rw [write_append]
  simp only [read?, Option.bind_eq_bind, after?_append, Option.bind_some, begun, named, parted, led,
    proper.opened, if_true, stem, Option.pure_def]

end Reading

section Searching

-- No end of a statement can stand before the quote that closes a path without quotes.
theorem Spelling.Plain.proper (plain : spelling.Plain name)
    (unquoted : ∀ c ∈ suffix, isQuote c = false) : spelling.Proper suffix name where
  name_ne_nil := plain.name_ne_nil
  name_isWord := plain.name_isWord
  beforeName := plain.beforeName
  behindName := plain.behindName
  beforePath := plain.beforePath
  opened := plain.opened
  closed := plain.closed ▸ plain.opened
  stem_ne_nil := plain.stem_ne_nil
  stem_line := plain.stem_line
  first := by
    rintro front back split - more ⟨quote, marked, rest, whole⟩
    -- Its quote would stand within the path, which is longer than the suffix.
    have front_part : suffix ++ [quote] <+: back ++ suffix := by
      refine List.prefix_of_prefix_length_le ?_ (List.prefix_append _ [spelling.closed, ';']) ?_
      next => exact ⟨';' :: rest, by rw [← whole]; simp⟩
      next =>
        have := List.length_pos_iff.2 more
        simp only [List.length_append, List.length_singleton]
        omega
    have inside : quote ∈ back ++ suffix := front_part.subset (by simp)
    rcases List.mem_append.1 inside with early | late
    next =>
      rw [plain.stem_unquoted quote (split ▸ List.mem_append_right front early)] at marked
      cases marked
    next =>
      rw [unquoted quote late] at marked
      cases marked

theorem import_eq_cons : "import".toList = 'i' :: "import".toList.tail := by
  decide

theorem startsAnew_nil : StartsAnew [] := by
  simp [StartsAnew]

theorem startsAnew_cons {c : Char} (apart : c ∉ "import".toList.tail) (text : Text) :
    StartsAnew (c :: text) := by
  simpa [StartsAnew] using apart

theorem startsAnew_write (spelling : Spelling) (suffix name rest : Text) :
    StartsAnew (spelling.write suffix name ++ rest) := by
  rw [write_append, import_eq_cons, List.cons_append]
  exact startsAnew_cons (by decide) _

theorem form_read_write (document : Text) (previous : Option Char)
    (proper : spelling.Proper suffix name) (rest : Text) :
    (form document suffix).read previous (spelling.write suffix name ++ rest) =
      some (⟨spelling.write suffix name, name, spelling.stem ++ suffix,
        (Path.resolve document (spelling.stem ++ suffix)).toText⟩, rest) := by
  have taken : (spelling.write suffix name ++ rest).take
      ((spelling.write suffix name ++ rest).length - rest.length) = spelling.write suffix name := by
    simp
  simp only [form, read?_write proper, Option.map_some, taken]

theorem prefix_of_form_read (found : (form document suffix).read previous text ≠ none) :
    "import".toList <+: text := by
  obtain ⟨⟨reference, rest⟩, found⟩ := Option.ne_none_iff_exists'.1 found
  simp only [form, Option.map_eq_some_iff, Prod.exists] at found
  obtain ⟨_, _, _, read, -⟩ := found
  simp only [read?, Option.bind_eq_bind, Option.bind_eq_some_iff] at read
  obtain ⟨behind, begun, -⟩ := read
  exact ⟨behind, (after?_eq_some_iff.1 begun).symm⟩

theorem values_free (free : Free) (anew : StartsAnew rest) (previous : Option Char) :
    ((form document suffix).pieces previous (free.text ++ rest)).values =
      ((form document suffix).pieces none rest).values := by
  have same : (form document suffix).pieces none rest =
      (form document suffix).pieces (free.text.getLast?.or previous) rest := Recogniser.pieces_congr _ rfl
  rw [same]
  apply Recogniser.values_of_missing
  intro front back split nonempty
  by_contra found
  have begun := prefix_of_form_read found
  have part : back <:+: free.text := split ▸ (List.suffix_append front back).isInfix
  refine free.free (List.IsInfix.trans ?_ part)
  -- A word that begins in the text ends in it too.
  cases rest with
  | nil => exact (List.append_nil back ▸ begun).isInfix
  | cons c rest =>
    obtain ⟨d, back, rfl⟩ := List.exists_cons_of_ne_nil nonempty
    rw [import_eq_cons] at begun ⊢
    obtain ⟨rfl, later⟩ := List.cons_prefix_cons.1 begun
    have inside := prefix_of_prefix_append_cons back (anew c rfl) later
    exact (List.cons_prefix_cons.2 ⟨rfl, inside⟩).isInfix

theorem values_line (document : Text) (unquoted : ∀ c ∈ suffix, isQuote c = false) (line : Line)
    (anew : StartsAnew rest) (previous : Option Char) :
    ((form document suffix).pieces previous (line.text suffix ++ rest)).values =
      (line.import? suffix document).toList ++ ((form document suffix).pieces none rest).values := by
  cases line with
  | other text => rw [Line.text, values_free text anew]; rfl
  | statement front name spelling plain behind =>
    have read := form_read_write document none (plain.proper unquoted)
      (behind.text ++ rest)
    rw [Line.text, List.append_assoc, List.append_assoc, values_free front (startsAnew_write _ _ _ _),
      Recogniser.pieces_of_read _ read, Pieces.values_find, values_free behind anew]
    rfl

end Searching

/-- Every plain statement is found, in order and as often as it stands there, and nothing else is.
-/
theorem scan_lines (document : Text) (unquoted : ∀ c ∈ suffix, isQuote c = false)
    (lines : List Line) : scan suffix document (writeLines suffix lines) =
      lines.filterMap (Line.import? suffix document) := by
  have whole : ∀ previous, ((form document suffix).pieces previous (writeLines suffix lines)).values =
      lines.filterMap (Line.import? suffix document) := by
    induction lines with
    | nil => simp [writeLines, join, Pieces.values]
    | cons line lines ih =>
      intro previous
      have head : (line :: lines).filterMap (Line.import? suffix document) =
          (line.import? suffix document).toList ++ lines.filterMap (Line.import? suffix document) := by
        rw [List.filterMap_cons]
        cases line.import? suffix document <;> rfl
      rw [head]
      by_cases last : lines = []
      next =>
        subst last
        have single := values_line document unquoted line startsAnew_nil
          previous
        simpa [writeLines, join, Pieces.values] using single
      next =>
        have passed : (form document suffix).read none ('\n' :: writeLines suffix lines) = none := by
          by_contra found
          have begun := prefix_of_form_read found
          rw [import_eq_cons] at begun
          exact absurd (List.cons_prefix_cons.1 begun).1 (by decide)
        have anew : StartsAnew ('\n' :: writeLines suffix lines) := startsAnew_cons (by decide) _
        rw [writeLines, List.map_cons, join_cons _ _ (by simpa using last), List.append_assoc,
          ← writeLines, List.singleton_append, values_line document unquoted line anew previous,
          Recogniser.pieces_cons_of_none _ passed, Pieces.values_skip, ih]
  exact whole none

theorem scan_lines_of_odd_words :
    let suffix : Text := ".svelte.xblock"
    let document : Text := "/src/App.svelte"
    let first : Text := "import import\u00a0from\t'import/.svelte.xblock.svelte.xblock';"
    let second : Text := "import é from \"../a.svelte.xblock\";"
    let text : Text := "im" ++ first ++ "impor\nt;\n" ++ second
    (∀ c ∈ suffix, isQuote c = false) ∧ scan suffix document text =
      [⟨first, "import", "import/.svelte.xblock.svelte.xblock",
          "/src/import/.svelte.xblock.svelte.xblock"⟩,
        ⟨second, "é", "../a.svelte.xblock", "/a.svelte.xblock"⟩] := by
  intro suffix document first second text
  have quiet (text : Text) (none : text.any isQuote = false) : ∀ c ∈ text, isQuote c = false := by
    simpa [List.any_eq_false] using none
  have unquoted : ∀ c ∈ suffix, isQuote c = false := quiet _ (by decide)
  have gap (c : Char) (blank : isBlank c = true) : IsGap [c] := ⟨by simp, by simpa using blank⟩
  let odd : Spelling := ⟨[' '], ['\u00a0'], ['\t'], '\'', "import/.svelte.xblock", '\''⟩
  let usual : Spelling := ⟨[' '], [' '], [' '], '"', "../a", '"'⟩
  have oddPlain : odd.Plain "import" :=
    ⟨by decide, List.all_eq_true.1 (by decide), gap _ (by decide), gap _ (by decide),
      gap _ (by decide), by decide, rfl, by decide, by decide, quiet _ (by decide)⟩
  have usualPlain : usual.Plain "é" :=
    ⟨by decide, List.all_eq_true.1 (by decide), gap _ (by decide), gap _ (by decide),
      gap _ (by decide), by decide, rfl, by decide, by decide, quiet _ (by decide)⟩
  let lines : List Line :=
    [.statement ⟨"im", by decide⟩ "import" odd oddPlain ⟨"impor", by decide⟩, .other ⟨"t;", by decide⟩,
      .statement ⟨[], by decide⟩ "é" usual usualPlain ⟨[], by decide⟩]
  have written : writeLines suffix lines = text := by
    simp only [writeLines, lines, List.map_cons, List.map_nil, Line.text]
    decide +kernel
  refine ⟨unquoted, ?_⟩
  rw [← written, scan_lines document unquoted]
  simp only [lines, List.filterMap_cons, List.filterMap_nil, Line.import?]
  decide +kernel

end Inlay.Import
