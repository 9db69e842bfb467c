import Inlay.Proofs.Script.Names

set_option autoImplicit false

namespace Inlay.Script

open Text Markup

def HasWord (word text : Text) : Prop :=
  ∃ front back, text = front ++ (word ++ back) ∧
    (∀ c ∈ front.getLast?, isWord c = false) ∧ ∀ c ∈ back.head?, isWord c = false

theorem atWordStart_iff {previous : Option Char} :
    atWordStart previous = true ↔ ∀ c ∈ previous, isWord c = false := by
  cases previous <;> simp [atWordStart]

theorem hasWord_iff {word text : Text} : HasWord word text ↔
    ∃ n ∈ List.range (text.length + 1), word <+: text.drop n ∧
      atWordStart (text.take n).getLast? = true ∧
        atWordStart (text.drop (n + word.length)).head? = true := by
  simp only [atWordStart_iff]
  constructor
  next =>
    rintro ⟨front, back, rfl, starts, ends⟩
    have onward : (front ++ (word ++ back)).drop (front.length + word.length) = back := by
      rw [← List.append_assoc, ← List.length_append, List.drop_left]
    refine ⟨front.length, List.mem_range.2 ?_, ?_, ?_, ?_⟩
    next =>
      rw [List.length_append]
      omega
    next => simp
    next => simpa using starts
    next => rwa [onward]
  next =>
    rintro ⟨n, -, ⟨back, split⟩, starts, ends⟩
    refine ⟨text.take n, back, by rw [split, List.take_append_drop], starts, ?_⟩
    rwa [← List.drop_drop, ← split, List.drop_left] at ends

instance (word text : Text) : Decidable (HasWord word text) :=
  decidable_of_iff' _ hasWord_iff

def IsQuiet (text : Text) : Prop :=
  ∀ keyword ∈ keywords, ¬ HasWord keyword text

instance (text : Text) : Decidable (IsQuiet text) :=
  inferInstanceAs (Decidable (∀ keyword ∈ keywords, ¬ HasWord keyword text))

structure Layout where
  text : Text
  blank : ∀ c ∈ text, c = ' ' ∨ c = '\t' ∨ c = '\n'

structure Keyword where
  text : Text
  known : text ∈ keywords

structure Name where
  text : Text
  nonempty : text ≠ []
  letters : ∀ c ∈ text, isWord c = true
  free : text ∉ keywords

structure Expression where
  text : Text
  no_slash : '/' ∉ text
  quiet : IsQuiet text

structure Literal extends Expression where
  plain : ∀ c ∈ [',', ':', '=', '}', ']'], c ∉ text

structure Spaced (A : Type) where
  before : Layout
  part : A
  behind : Layout

def Spaced.write {A : Type} (text : A → Text) (spaced : Spaced A) : Text :=
  spaced.before.text ++ (text spaced.part ++ spaced.behind.text)

def signed {A : Type} (sign : Char) (text : A → Text) : Option (Spaced A) → Text
  | none => []
  | some spaced => sign :: spaced.write text

structure Item where
  name : Spaced Name
  renamed : Option (Spaced Name)
  value : Option (Spaced Literal)

def Item.text (item : Item) : Text :=
  item.name.write Name.text ++ signed ':' Name.text item.renamed ++
    signed '=' (fun value => value.text) item.value

def writeItems (items : List Item) : Text :=
  join [','] (items.map Item.text)

inductive Target
  | name (word : Name)
  | object (items : List Item) (nonempty : items ≠ [])
  | array (items : List Item) (nonempty : items ≠ [])

namespace Target

def form : Target → Form
  | name _ => .name
  | object _ _ => .object
  | array _ _ => .array

def body : Target → Text
  | name word => word.text
  | object items _ => writeItems items
  | array items _ => writeItems items

def text : Target → Text
  | name word => word.text
  | object items _ => '{' :: (writeItems items ++ ['}'])
  | array items _ => '[' :: (writeItems items ++ [']'])

def names : Target → List Text
  | name word => [word.text]
  | object items _ => items.map fun item => item.name.part.text
  | array items _ => items.map fun item => item.name.part.text

end Target

structure Statement where
  keyword : Keyword
  gap : Layout
  gapped : gap.text ≠ []
  target : Target
  space : Layout
  value : Option (Spaced Expression)

def Statement.ending (statement : Statement) : Text :=
  statement.space.text ++ (signed '=' Expression.text statement.value ++ [';'])

def Statement.text (statement : Statement) : Text :=
  statement.keyword.text ++ (statement.gap.text ++ (statement.target.text ++ statement.ending))

def writeStatements (statements : List Statement) : Text :=
  join ['\n'] (statements.map Statement.text)

-- The signs that stand in a statement.
def signs : List Char :=
  [',', ':', '=', ';', '/', '{', '}', '[', ']', '\n']

variable {c : Char} {text first second word : Text}

theorem isWord_of_mem_signs (sign : c ∈ signs) : isWord c = false := by
  have symbols : (signs.all fun c => !isWord c) = true := by decide
  simpa using List.all_eq_true.1 symbols c sign

section Quiet

namespace IsQuiet

theorem of_symbols (symbols : ∀ c ∈ text, isWord c = false) : IsQuiet text := by
  rintro keyword known ⟨front, back, rfl, -, -⟩
  obtain ⟨c, rest, rfl⟩ := List.exists_cons_of_ne_nil (ne_nil_of_mem_keywords known)
  exact symbol_not_mem_keyword known (symbols c (by simp)) List.mem_cons_self

theorem nil : IsQuiet [] :=
  of_symbols (by simp)

theorem append_cons (symbol : isWord c = false) (before : IsQuiet first) (behind : IsQuiet second) :
    IsQuiet (first ++ c :: second) := by
  rintro keyword known ⟨front, back, whole, starts, ends⟩
  have absent := symbol_not_mem_keyword known symbol
  rcases List.append_eq_append_iff.1 whole with ⟨more, rfl, inside⟩ | ⟨more, rfl, inside⟩
  next =>
    cases more with
    | nil =>
      obtain ⟨d, rest, rfl⟩ := List.exists_cons_of_ne_nil (ne_nil_of_mem_keywords known)
      obtain ⟨rfl, -⟩ := List.cons.inj inside
      exact absent List.mem_cons_self
    | cons d more =>
      obtain ⟨rfl, rfl⟩ := List.cons.inj inside
      refine behind keyword known ⟨more, back, rfl, ?_, ends⟩
      intro e last
      refine starts e ?_
      simp [List.getLast?_append, List.getLast?_cons, Option.mem_def.1 last]
  next =>
    rcases List.append_eq_append_iff.1 inside with ⟨rest, rfl, rfl⟩ | ⟨rest, rfl, later⟩
    next =>
      refine before keyword known ⟨front, rest, rfl, starts, ?_⟩
      intro e head
      refine ends e ?_
      simp [List.head?_append, Option.mem_def.1 head]
    next =>
      cases rest with
      | nil => exact before _ known ⟨front, [], by simp, starts, by simp⟩
      | cons d rest =>
        obtain ⟨rfl, -⟩ := List.cons.inj later
        exact absent (by simp)

theorem cons (symbol : isWord c = false) (quiet : IsQuiet text) : IsQuiet (c :: text) :=
  nil.append_cons symbol quiet

end IsQuiet

theorem HasWord.cons (symbol : isWord c = false) (has : HasWord word text) :
    HasWord word (c :: text) := by
  obtain ⟨front, back, rfl, starts, ends⟩ := has
  refine ⟨c :: front, back, rfl, ?_, ends⟩
  intro d last
  cases front with
  | nil =>
    obtain rfl : c = d := by simpa using last
    exact symbol
  | cons e front => exact starts d (by simpa [List.getLast?_cons] using last)

namespace IsQuiet

theorem append (before : IsQuiet first) (behind : IsQuiet second)
    (edge : ∀ c ∈ second.head?, isWord c = false) : IsQuiet (first ++ second) := by
  cases second with
  | nil => simpa using before
  | cons c second =>
    have symbol := edge c rfl
    exact before.append_cons symbol fun keyword known has => behind keyword known (has.cons symbol)

theorem after_symbols (symbols : ∀ c ∈ first, isWord c = false) (quiet : IsQuiet second) :
    IsQuiet (first ++ second) := by
  induction first with
  | nil => exact quiet
  | cons c first ih =>
    obtain ⟨here, later⟩ := List.forall_mem_cons.1 symbols
    exact (ih later).cons here

end IsQuiet

theorem Name.quiet (name : Name) : IsQuiet name.text := by
  rintro keyword known ⟨front, back, whole, starts, ends⟩
  have letters := name.letters
  have before : front = [] := by
    rcases List.eq_nil_or_concat front with empty | ⟨front, c, rfl⟩
    next => exact empty
    next =>
      have symbol := starts c (by simp)
      rw [letters c (by simp [whole])] at symbol
      cases symbol
  have behind : back = [] := by
    cases back with
    | nil => rfl
    | cons c back =>
      have symbol := ends c rfl
      rw [letters c (by simp [whole])] at symbol
      cases symbol
  rw [before, behind, List.nil_append, List.append_nil] at whole
  exact name.free (whole ▸ known)

end Quiet

section Layout

variable {layout : Layout}

theorem Layout.isBlank (member : c ∈ layout.text) : isBlank c = true := by
  rcases layout.blank c member with rfl | rfl | rfl <;> decide

theorem Layout.isPadding (member : c ∈ layout.text) : isPadding c = true := by
  rcases layout.blank c member with rfl | rfl | rfl <;> decide

theorem Layout.symbol (member : c ∈ layout.text) : isWord c = false :=
  isWord_of_isPadding (Layout.isPadding member)

theorem Layout.not_mem (visible : Text.isBlank c = false) : c ∉ layout.text := by
  intro member
  rw [Layout.isBlank member] at visible
  cases visible

theorem Layout.quiet (layout : Layout) : IsQuiet layout.text :=
  .of_symbols fun _ => Layout.symbol

end Layout

section Parts

variable {A : Type} {write : A → Text} {sign : Char}

theorem Spaced.quiet {spaced : Spaced A} (quiet : IsQuiet (write spaced.part)) :
    IsQuiet (spaced.write write) := by
  refine IsQuiet.after_symbols (fun _ => Layout.symbol) (quiet.append spaced.behind.quiet ?_)
  exact fun c first => Layout.symbol (List.mem_of_mem_head? first)

theorem Spaced.not_mem {spaced : Spaced A} (visible : isBlank c = false)
    (absent : c ∉ write spaced.part) : c ∉ spaced.write write := by
  simp [Spaced.write, Layout.not_mem visible, absent]

theorem signed_quiet {part : Option (Spaced A)} (symbol : isWord sign = false)
    (quiet : ∀ spaced ∈ part, IsQuiet (write spaced.part)) : IsQuiet (signed sign write part) := by
  cases part with
  | none => exact .nil
  | some spaced => exact (Spaced.quiet (quiet spaced rfl)).cons symbol

theorem signed_not_mem {part : Option (Spaced A)} (visible : isBlank c = false) (other : c ≠ sign)
    (absent : ∀ spaced ∈ part, c ∉ write spaced.part) : c ∉ signed sign write part := by
  cases part with
  | none => simp [signed]
  | some spaced => simp [signed, other, Spaced.not_mem visible (absent spaced rfl)]

theorem eq_of_head?_signed {part : Option (Spaced A)} (first : c ∈ (signed sign write part).head?) :
    c = sign := by
  cases part with
  | none => cases first
  | some spaced => simpa [signed, eq_comm] using first

end Parts

namespace Item

theorem quiet (item : Item) : IsQuiet item.text := by
  have colon : isWord ':' = false := isWord_of_mem_signs (by decide)
  have equals : isWord '=' = false := isWord_of_mem_signs (by decide)
  refine IsQuiet.append (.append (Spaced.quiet item.name.part.quiet) ?_ ?_) ?_ ?_
  next => exact signed_quiet colon fun spaced _ => spaced.part.quiet
  next => exact fun c first => eq_of_head?_signed first ▸ colon
  next => exact signed_quiet equals fun spaced _ => spaced.part.quiet
  next => exact fun c first => eq_of_head?_signed first ▸ equals

theorem not_mem_text (item : Item) (mark : c ∈ ['/', ',', '}', ']']) : c ∉ item.text := by
  simp only [List.mem_cons, List.not_mem_nil, or_false] at mark
  obtain ⟨sign, visible, colon, equals⟩ :
      c ∈ signs ∧ isBlank c = false ∧ c ≠ ':' ∧ c ≠ '=' := by
    rcases mark with rfl | rfl | rfl | rfl <;> decide
  have name (name : Name) : c ∉ name.text := by
    intro member
    have symbol := isWord_of_mem_signs sign
    rw [name.letters c member] at symbol
    cases symbol
  have value (value : Literal) : c ∉ value.text := by
    rcases mark with rfl | rfl | rfl | rfl
    next => exact value.no_slash
    next => exact value.plain ',' (by decide)
    next => exact value.plain '}' (by decide)
    next => exact value.plain ']' (by decide)
  simp only [text, List.mem_append, not_or]
  exact ⟨⟨Spaced.not_mem visible (name _), signed_not_mem visible colon fun _ _ => name _⟩,
    signed_not_mem visible equals fun _ _ => value _⟩

theorem leadsWith (item : Item) : LeadsWith item.text item.name.part.text := by
  refine ⟨item.name.before.text, item.name.behind.text, signed ':' Name.text item.renamed ++
    signed '=' (fun value => value.text) item.value, ?_, ?_, item.name.part.letters, ?_⟩
  next => simp [text, Spaced.write]
  next => exact List.forall_mem_append.2 ⟨fun _ => Layout.isPadding, fun _ => Layout.isPadding⟩
  next =>
    intro c first
    rw [List.head?_append, Option.mem_def, Option.or_eq_some_iff] at first
    rcases first with colon | ⟨-, equals⟩
    next => rw [eq_of_head?_signed colon]; decide
    next => rw [eq_of_head?_signed equals]; decide

theorem text_ne_nil (item : Item) : item.text ≠ [] := by
  simp [text, Spaced.write, item.name.part.nonempty]

end Item

section Items

variable {items : List Item}

theorem writeItems_ne_nil (nonempty : items ≠ []) : writeItems items ≠ [] := by
  cases items with
  | nil => exact absurd rfl nonempty
  | cons item items =>
    obtain ⟨c, rest, whole⟩ := List.exists_cons_of_ne_nil item.text_ne_nil
    have among : item.text ∈ (item :: items).map Item.text := by simp
    have member : c ∈ writeItems (item :: items) := subset_join [','] among (by simp [whole])
    exact List.ne_nil_of_mem member

theorem not_mem_writeItems (mark : c ∈ ['/', '}', ']']) (items : List Item) :
    c ∉ writeItems items := by
  have apart : c ≠ ',' ∧ c ∈ ['/', ',', '}', ']'] := by
    simp only [List.mem_cons, List.not_mem_nil, or_false] at mark
    rcases mark with rfl | rfl | rfl <;> decide
  intro member
  rcases exists_mem_of_mem_join member with rfl | ⟨part, among, inside⟩
  next => exact apart.1 rfl
  next =>
    obtain ⟨item, -, rfl⟩ := List.mem_map.1 among
    exact item.not_mem_text apart.2 inside

theorem writeItems_quiet (items : List Item) : IsQuiet (writeItems items) := by
  induction items with
  | nil => exact .nil
  | cons item items ih =>
    by_cases alone : items = []
    next =>
      subst alone
      exact item.quiet
    next =>
      rw [writeItems, List.map_cons, join_cons _ _ (by simpa using alone), List.append_assoc]
      exact item.quiet.append_cons (isWord_of_mem_signs (by decide)) ih

theorem namesOfBody_writeItems (nonempty : items ≠ []) :
    namesOfBody (writeItems items) = items.map fun item => item.name.part.text := by
  have whole : ∀ part ∈ items.map Item.text, ',' ∉ part := by
    intro part among
    obtain ⟨item, -, rfl⟩ := List.mem_map.1 among
    exact item.not_mem_text (by decide)
  rw [namesOfBody, writeItems, splitAt_join (by simpa using nonempty) whole, List.map_map]
  have names : items.map (nameOfPiece ∘ Item.text) = items.map fun item => item.name.part.text :=
    List.map_congr_left fun item _ => nameOfPiece_of_leadsWith item.leadsWith
  rw [names, List.filter_eq_self]
  intro name among
  obtain ⟨item, -, rfl⟩ := List.mem_map.1 among
  simpa using item.name.part.nonempty

end Items

namespace Target

variable {target : Target}

theorem quiet (target : Target) : IsQuiet target.text := by
  cases target with
  | name word => exact word.quiet
  | object items =>
    refine IsQuiet.cons (isWord_of_mem_signs (by decide)) ?_
    exact (writeItems_quiet items).append_cons (isWord_of_mem_signs (by decide)) .nil
  | array items =>
    refine IsQuiet.cons (isWord_of_mem_signs (by decide)) ?_
    exact (writeItems_quiet items).append_cons (isWord_of_mem_signs (by decide)) .nil

theorem no_slash (target : Target) : '/' ∉ target.text := by
  cases target with
  | name word =>
    intro member
    have symbol : isWord '/' = false := isWord_of_mem_signs (by decide)
    rw [word.letters '/' member] at symbol
    cases symbol
  | object items => simp [text, not_mem_writeItems]
  | array items => simp [text, not_mem_writeItems]

theorem namesOfBody_body (target : Target) : namesOfBody target.body = target.names := by
  cases target with
  | name word => exact namesOfBody_of_isWord word.nonempty word.letters
  | object items nonempty => exact namesOfBody_writeItems nonempty
  | array items nonempty => exact namesOfBody_writeItems nonempty

end Target

namespace Statement

-- Behind the declared name or pattern the statement goes on to a sign that ends a declared name.
theorem exists_ending (statement : Statement) : ∃ c after,
    statement.ending = statement.space.text ++ c :: after ∧ c ∈ Form.closers .name ∧
      IsQuiet after := by
  cases value : statement.value with
  | none => exact ⟨';', [], by simp [ending, value, signed], by simp [Form.closers], .nil⟩
  | some spaced =>
    refine ⟨'=', spaced.write Expression.text ++ [';'], by simp [ending, value, signed],
      by simp [Form.closers], ?_⟩
    exact (Spaced.quiet spaced.part.quiet).append_cons (isWord_of_mem_signs (by decide)) .nil

theorem ending_quiet (statement : Statement) : IsQuiet statement.ending := by
  obtain ⟨c, after, whole, closer, quiet⟩ := statement.exists_ending
  rw [whole]
  exact .after_symbols (fun _ => Layout.symbol) (quiet.cons (Form.not_letter_of_closer closer).1)

theorem symbol_ending (statement : Statement) (first : c ∈ statement.ending.head?) :
    isWord c = false := by
  obtain ⟨d, after, whole, closer, -⟩ := statement.exists_ending
  rw [whole, List.head?_append, Option.mem_def, Option.or_eq_some_iff] at first
  rcases first with early | ⟨-, sign⟩
  next => exact Layout.symbol (List.mem_of_mem_head? early)
  next =>
    obtain rfl : d = c := by simpa using sign
    exact (Form.not_letter_of_closer closer).1

theorem no_slash (statement : Statement) : '/' ∉ statement.text := by
  have keyword : '/' ∉ statement.keyword.text :=
    symbol_not_mem_keyword statement.keyword.known (isWord_of_mem_signs (by decide))
  have layout (layout : Layout) : '/' ∉ layout.text := Layout.not_mem (by decide)
  have value : '/' ∉ signed '=' Expression.text statement.value :=
    signed_not_mem (by decide) (by decide) fun spaced _ => spaced.part.no_slash
  simp [text, ending, keyword, layout, value, statement.target.no_slash]

end Statement

end Inlay.Script
