import Inlay.Proofs.Markup.Substitution

set_option autoImplicit false

namespace Inlay.Markup.Placeholder

open Text

def IsUsage (name usage : Text) : Prop :=
  ∃ blanks slash, usage = '<' :: (name ++ (blanks ++ (slash ++ ['>']))) ∧
    (∀ c ∈ blanks, isBlank c = true) ∧ (slash = [] ∨ slash = ['/'])

def IsFree (name text : Text) : Prop :=
  ∀ usage, IsUsage name usage → ¬ usage <:+: text

structure IsSplit (name text : Text) (split : Pieces Text) : Prop where
  whole : split.write id = text
  usages : ∀ usage ∈ split.values, IsUsage name usage
  gaps : ∀ gap ∈ split.gaps, IsFree name gap

variable {name text template usage : Text} {split : Pieces Text}

theorem isUsage_iff :
    IsUsage name usage ↔ ∃ inner, Fits name inner ∧ usage = '<' :: (inner ++ ['>']) := by
  constructor
  next =>
    rintro ⟨blanks, slash, rfl, blank, ends⟩
    exact ⟨_, ⟨blanks, slash, rfl, blank, ends⟩, by simp⟩
  next =>
    rintro ⟨inner, ⟨blanks, slash, rfl, blank, ends⟩, rfl⟩
    exact ⟨blanks, slash, by simp, blank, ends⟩

section Word

variable (word : ∀ c ∈ name, isWord c = true)

include word

theorem isFree_iff : IsFree name text ↔ (pieces name text).values = [] := by
  rw [pieces, (isBracketed word).values_eq_nil_iff]
  constructor
  next =>
    rintro free inner lexeme ⟨fits, rfl⟩
    exact free _ (isUsage_iff.2 ⟨inner, fits, rfl⟩)
  next =>
    intro absent usage used
    obtain ⟨inner, fits, rfl⟩ := isUsage_iff.1 used
    exact absent inner _ ⟨fits, rfl⟩

theorem isUsage_of_mem_values (member : usage ∈ (pieces name text).values) :
    IsUsage name usage := by
  obtain ⟨previous, place, rest, found⟩ := Recogniser.exists_read_of_mem_values member
  obtain ⟨inner, ⟨fits, rfl⟩, -⟩ := (isBracketed word).read_iff.1 found
  exact isUsage_iff.2 ⟨inner, fits, rfl⟩

theorem isFree_of_mem_gaps {gap : Text} (member : gap ∈ (pieces name text).gaps) :
    IsFree name gap :=
  (isFree_iff word).2 ((isBracketed word).values_of_mem_gaps member)

theorem isSplit_iff : IsSplit name text split ↔ split = pieces name text := by
  constructor
  next =>
    rintro ⟨rfl, usages, gaps⟩
    refine ((isBracketed word).pieces_write ?_ ?_).symm
    next =>
      intro usage member
      obtain ⟨inner, fits, rfl⟩ := isUsage_iff.1 (usages usage member)
      exact ⟨inner, ⟨fits, rfl⟩, rfl⟩
    next => exact fun gap member => (isFree_iff word).1 (gaps gap member)
  next =>
    rintro rfl
    exact ⟨write_lexemes word text, fun _ => isUsage_of_mem_values word,
      fun _ => isFree_of_mem_gaps word⟩

-- No usage is formed where a gap and a template meet.
theorem values_write_template {parts : List (Text × Text)} {tail : Text}
    (opened : ['<'] <+: template) (closed : ['>'] <:+ template)
    (free : (pieces name template).values = [])
    (plain : ∀ gap ∈ Pieces.gaps ⟨parts, tail⟩, (pieces name gap).values = []) :
    (pieces name (Pieces.write (fun _ => template) ⟨parts, tail⟩)).values = [] := by
  have joined (gap rest : Text) : (pieces name (gap ++ (template ++ rest))).values =
      (pieces name gap).values ++ ((pieces name template).values ++ (pieces name rest).values) := by
    have before : Apart gap (template ++ rest) := by
      obtain ⟨inner, rfl⟩ := opened
      exact .of_opened gap _
    have behind : Apart template rest := by
      obtain ⟨inner, rfl⟩ := closed
      exact .of_closed inner rest
    rw [pieces, (isBracketed word).pieces_append before none none, Pieces.values_append,
      (isBracketed word).pieces_append behind none none, Pieces.values_append]
    rfl
  induction parts with
  | nil => simpa using plain tail (by simp [Pieces.gaps])
  | cons part parts ih =>
    obtain ⟨here, later⟩ := Pieces.forall_gaps_cons.1 plain
    rw [Pieces.write_cons, joined, here, free, ih later]
    rfl

end Word

/-- Every text has one split into gaps and usages, and filling keeps its gaps. A template in
brackets of its own that holds no usage leaves none behind. -/
theorem fill_literal (word : ∀ c ∈ name, isWord c = true) (text : Text) :
    (∃! split, IsSplit name text split) ∧
      (∀ split, IsSplit name text split →
        ∀ template, fill name template text = split.write fun _ => template) ∧
      ∀ template, ['<'] <+: template → ['>'] <:+ template → IsFree name template →
        IsFree name (fill name template text) ∧
          ∀ other, fill name other (fill name template text) = fill name template text := by
  refine ⟨⟨pieces name text, (isSplit_iff word).2 rfl, fun _ => (isSplit_iff word).1⟩, ?_, ?_⟩
  next =>
    intro split splits template
    rw [(isSplit_iff word).1 splits, fill]
  next =>
    intro template opened closed free
    have plain : ∀ gap ∈ (pieces name text).gaps, (pieces name gap).values = [] :=
      fun _ => (isBracketed word).values_of_mem_gaps
    have filled : (pieces name (fill name template text)).values = [] :=
      values_write_template word opened closed ((isFree_iff word).1 free) plain
    exact ⟨(isFree_iff word).2 filled, fun other => fill_of_values word other filled⟩

theorem fill_literal_of_backslashes :
    let name : Text := "A"
    let text : Text := "<A/><<A\t/>A>x</A><A\u00a0>"
    let template : Text := "<p>\\1\\g<0></A><A x/>"
    let split : Pieces Text := ⟨[([], "<A/>"), ("<", "<A\t/>"), ("A>x</A>", "<A\u00a0>")], []⟩
    ((∀ c ∈ name, isWord c = true) ∧ ['<'] <+: template ∧ ['>'] <:+ template ∧
        IsFree name template ∧ IsSplit name text split) ∧
      fill name template text = template ++ '<' :: template ++ ("A>x</A>" : String) ++ template ∧
      IsFree name (fill name template text) ∧
      fill name template (fill name template text) = fill name template text := by
  intro name text template split
  have word : ∀ c ∈ name, isWord c = true := List.all_eq_true.1 (by decide +kernel)
  have opened : ['<'] <+: template := by decide
  have closed : ['>'] <:+ template := by decide
  have free : IsFree name template := (isFree_iff word).2 (by decide +kernel)
  have parts : split.parts = (pieces name text).parts := by decide +kernel
  have tail : split.tail = (pieces name text).tail := by decide +kernel
  have splits : IsSplit name text split := by
    rw [isSplit_iff word]
    generalize pieces name text = found at parts tail
    cases found
    cases parts
    cases tail
    rfl
  obtain ⟨-, same, settled⟩ := fill_literal word text
  obtain ⟨none, again⟩ := settled template opened closed free
  exact ⟨⟨word, opened, closed, free, splits⟩, (same split splits template).trans (by decide), none,
    again template⟩

end Inlay.Markup.Placeholder
