import Inlay.Markup
import Inlay.Proofs.Markup.Remainder
import Inlay.Proofs.Text.Bracketed

set_option autoImplicit false

namespace Inlay.Markup

open Text

namespace Placeholder

-- What stands between the brackets of a placeholder.
def Fits (name inner : Text) : Prop :=
  ∃ blanks slash, inner = name ++ (blanks ++ slash) ∧ (∀ c ∈ blanks, isBlank c = true) ∧
    (slash = [] ∨ slash = ['/'])

variable {name template text rest : Text}

theorem close?_eq_some_iff : close? text = some rest ↔
    ∃ blanks slash, text = blanks ++ (slash ++ '>' :: rest) ∧ (∀ c ∈ blanks, isBlank c = true) ∧
      (slash = [] ∨ slash = ['/']) := by
  constructor
  next =>
    intro found
    have whole := List.takeWhile_append_dropWhile (p := isBlank) (l := text)
    have blank : ∀ c ∈ text.takeWhile isBlank, isBlank c = true :=
      List.all_eq_true.1 List.all_takeWhile
    unfold close? at found
    split at found
    next shape =>
      cases found
      rw [shape] at whole
      exact ⟨_, ['/'], whole.symm, blank, .inr rfl⟩
    next shape =>
      cases found
      rw [shape] at whole
      exact ⟨_, [], whole.symm, blank, .inl rfl⟩
    next => cases found
  next =>
    rintro ⟨blanks, slash, rfl, blank, ends⟩
    have solid : isBlank '/' = false ∧ isBlank '>' = false := by decide
    rw [close?, List.dropWhile_append_of_pos blank]
    rcases ends with rfl | rfl <;> simp [solid]

theorem read?_eq_some_iff : read? name text = some rest ↔
    ∃ inner, Fits name inner ∧ text = '<' :: (inner ++ '>' :: rest) := by
  simp only [read?, Option.bind_eq_bind, Option.bind_eq_some_iff, after?_eq_some_iff,
    close?_eq_some_iff]
  constructor
  next =>
    rintro ⟨inside, rfl, blanks, slash, rfl, blank, ends⟩
    exact ⟨_, ⟨blanks, slash, rfl, blank, ends⟩, by simp⟩
  next =>
    rintro ⟨inner, ⟨blanks, slash, rfl, blank, ends⟩, rfl⟩
    exact ⟨_, by simp, blanks, slash, rfl, blank, ends⟩

theorem Fits.not_mem {inner : Text} {c : Char} (word : ∀ c ∈ name, isWord c = true)
    (fits : Fits name inner) (symbol : isWord c = false) (visible : isBlank c = false)
    (other : c ≠ '/') : c ∉ inner := by
  obtain ⟨blanks, slash, rfl, blank, ends⟩ := fits
  intro member
  rcases List.mem_append.1 member with inside | inside
  next => simp [word c inside] at symbol
  next =>
    rcases List.mem_append.1 inside with inside | inside
    next => simp [blank c inside] at visible
    next => rcases ends with rfl | rfl <;> simp [other] at inside

theorem Fits.plain {inner : Text} (word : ∀ c ∈ name, isWord c = true) (fits : Fits name inner) :
    '<' ∉ inner ∧ '>' ∉ inner :=
  ⟨fits.not_mem word (by decide) (by decide) (by decide),
    fits.not_mem word (by decide) (by decide) (by decide)⟩

theorem isBracketed (word : ∀ c ∈ name, isWord c = true) :
    (form name).IsBracketed fun inner lexeme => Fits name inner ∧ lexeme = '<' :: inner ++ ['>'] where
  plain told := told.1.plain word
  read_iff := by
    intro previous text lexeme rest
    have taken (inner : Text) : ('<' :: (inner ++ '>' :: rest)).take
        (('<' :: (inner ++ '>' :: rest)).length - rest.length) = '<' :: inner ++ ['>'] := by
      have split : '<' :: (inner ++ '>' :: rest) = ('<' :: inner ++ ['>']) ++ rest := by simp
      rw [split, List.length_append, Nat.add_sub_cancel, List.take_left]
    simp only [form, Option.map_eq_some_iff, Prod.mk.injEq, read?_eq_some_iff]
    constructor
    next =>
      rintro ⟨rest, ⟨inner, fits, rfl⟩, rfl, rfl⟩
      exact ⟨inner, ⟨fits, taken inner⟩, rfl⟩
    next =>
      rintro ⟨inner, ⟨fits, rfl⟩, rfl⟩
      exact ⟨rest, ⟨inner, fits, rfl⟩, taken inner, rfl⟩

section Word

variable (word : ∀ c ∈ name, isWord c = true)

include word

theorem write_lexemes (text : Text) : (pieces name text).write id = text := by
  refine (form name).write_pieces id ?_ none text
  intro previous text rest lexeme found
  obtain ⟨inner, ⟨-, rfl⟩, rfl⟩ := (isBracketed word).read_iff.1 found
  simp

theorem closed_of_mem_values {lexeme : Text} (member : lexeme ∈ (pieces name text).values) :
    ['>'] <:+: lexeme := by
  obtain ⟨previous, place, rest, found⟩ := Recogniser.exists_read_of_mem_values member
  obtain ⟨inner, ⟨-, rfl⟩, -⟩ := (isBracketed word).read_iff.1 found
  exact (List.suffix_append _ _).isInfix

theorem fill_of_values (template : Text) (none : (pieces name text).values = []) :
    fill name template text = text := by
  have parts : (pieces name text).parts = [] := List.map_eq_nil_iff.1 none
  have whole := write_lexemes word text
  simpa [fill, Pieces.write, parts] using whole

theorem fill_append {first second : Text} (template : Text) (apart : Apart first second) :
    fill name template (first ++ second) = fill name template first ++ fill name template second := by
  rw [fill, pieces, (isBracketed word).pieces_append apart none none, Pieces.write_append]
  rfl

-- A placeholder has its slash at the end, and a closing tag at the front of its name.
theorem values_closing {tag : Text} (named : IsTagName tag) (nonempty : tag ≠ []) :
    (pieces name (closing tag)).values = [] := by
  have missing : (form name).read none (closing tag) = none := by
    rw [Option.eq_none_iff_forall_ne_some]
    rintro ⟨lexeme, rest⟩ found
    obtain ⟨inner, ⟨⟨blanks, slash, rfl, blank, ends⟩, -⟩, whole⟩ :=
      (isBracketed word).read_iff.1 found
    have solid : isWord '/' = false ∧ isBlank '/' = false := by decide
    obtain ⟨first, tag, rfl⟩ := List.exists_cons_of_ne_nil nonempty
    have open_name : first ≠ '>' := fun same => named.not_mem_close (by simp [same])
    rw [closing_eq] at whole
    cases name with
    | cons c name =>
      have same : '/' = c := by simpa using (List.cons.inj (List.cons.inj whole).2).1
      simp [same ▸ solid.1] at word
    | nil =>
      cases blanks with
      | cons c blanks =>
        have same : '/' = c := by simpa using (List.cons.inj (List.cons.inj whole).2).1
        simp [same ▸ solid.2] at blank
      | nil => rcases ends with rfl | rfl <;> simp [open_name] at whole
  rw [closing_eq] at missing ⊢
  rw [pieces, (form name).pieces_cons_of_none missing, Pieces.values_skip,
    (isBracketed word).pieces_of_not_mem (.inl named.not_mem_closing)]
  rfl

end Word
end Placeholder

open Placeholder

def filled (name template text : Text) : List Text :=
  (pieces name text).texts fun _ => template

structure BringsNoMark (tag name template text : Text) : Prop where
  plain : ∀ mark ∈ [opening tag, closing tag], ¬ mark <:+: template
  joins : ∀ mark ∈ [opening tag, closing tag], JoinsNo mark (filled name template text)

instance (tag name template text : Text) : Decidable (BringsNoMark tag name template text) :=
  decidable_of_iff ((∀ mark ∈ [opening tag, closing tag], ¬ mark <:+: template) ∧
      ∀ mark ∈ [opening tag, closing tag], JoinsNo mark (filled name template text))
    ⟨fun h => ⟨h.1, h.2⟩, fun h => ⟨h.1, h.2⟩⟩

variable {tag name template text gap rest : Text} {marks : List Text} {region : Region}

theorem replaces_lexeme {lexeme : Text}
    (plain : ∀ mark ∈ [opening tag, closing tag], ¬ mark <:+: template)
    (closed : ['>'] <:+: lexeme) : Replaces (regionMarks tag) template lexeme := by
  intro inner inside order
  have absent : ∀ mark ∈ [opening tag, closing tag], mark ∉ inner :=
    fun mark listed member => plain mark listed (order.isInfix_of_mem member)
  -- Of the three marks only the bracket between the tags is left.
  have few : inner.Sublist ([opening tag] ++ ([['>']] ++ [closing tag])) := inside.sublist
  obtain ⟨first, others, rfl, opens, few⟩ := List.sublist_append_iff.1 few
  obtain ⟨bracket, last, rfl, middle, closes⟩ := List.sublist_append_iff.1 few
  have none (mark : Text) (listed : mark ∈ [opening tag, closing tag]) {part : List Text}
      (single : part.Sublist [mark]) (among : part ⊆ first ++ (bracket ++ last)) : part = [] := by
    rcases List.sublist_singleton.1 single with empty | rfl
    next => exact empty
    next => exact absurd (among List.mem_cons_self) (absent mark listed)
  obtain rfl := none (opening tag) (by simp) opens (by simp)
  obtain rfl := none (closing tag) (by simp) closes (by simp)
  rcases List.sublist_singleton.1 middle with rfl | rfl
  next => trivial
  next => simpa [inOrder_singleton_iff] using closed

namespace BringsNoMark

theorem inOrder (word : ∀ c ∈ name, isWord c = true) (brings : BringsNoMark tag name template text)
    (some : marks <:+: regionMarks tag) (order : InOrder marks (fill name template text)) :
    InOrder marks text := by
  have openings := brings.joins (opening tag) (by simp)
  have closings := brings.joins (closing tag) (by simp)
  have joins : ∀ mark ∈ regionMarks tag, JoinsNo mark (filled name template text) := by
    simp [regionMarks, openings, closings, JoinsNo.of_char]
  rw [← write_lexemes word text]
  refine Pieces.inOrder_write (fun mark member => joins mark (some.subset member)) ?_ order
  intro lexeme member inner inside
  exact replaces_lexeme brings.plain (closed_of_mem_values word member) inner (inside.trans some)

theorem of_append {first second : Text} (word : ∀ c ∈ name, isWord c = true)
    (apart : Apart first second) (brings : BringsNoMark tag name template (first ++ second)) :
    BringsNoMark tag name template first ∧ BringsNoMark tag name template second := by
  have split (mark : Text) (listed : mark ∈ [opening tag, closing tag]) :
      JoinsNo mark (filled name template first) ∧ JoinsNo mark (filled name template second) := by
    have joins := brings.joins mark listed
    rw [filled, pieces, (isBracketed word).pieces_append apart none none] at joins
    exact Pieces.joinsNo_append joins
  exact ⟨⟨brings.plain, fun mark listed => (split mark listed).1⟩,
    ⟨brings.plain, fun mark listed => (split mark listed).2⟩⟩

end BringsNoMark

def Region.head (tag : Text) (region : Region) : Text :=
  opening tag ++ region.attrs ++ ['>']

def Region.fill (name template : Text) (region : Region) : Region :=
  ⟨region.attrs, Placeholder.fill name template region.content⟩

def fillPieces (name template : Text) (pieces : Pieces Region) : Pieces Region :=
  ⟨pieces.parts.map fun part => (fill name template part.1, part.2.fill name template),
    fill name template pieces.tail⟩

section Word

variable (word : ∀ c ∈ name, isWord c = true) (named : IsTagName tag) (nonempty : tag ≠ [])

theorem append_write_eq (tag gap rest : Text) (region : Region) :
    gap ++ (region.write tag ++ rest) =
      gap ++ (region.head tag ++ (region.content ++ (closing tag ++ rest))) := by
  simp [Region.write, Region.head]

-- No placeholder runs over the places where a gap, an opening tag, a content or a closing tag ends.
theorem apart_gap (tag gap : Text) (region : Region) (rest : Text) :
    Apart gap (region.head tag ++ rest) := by
  simpa [Region.head, opening] using Apart.of_opened gap _

theorem apart_head (tag : Text) (region : Region) (rest : Text) : Apart (region.head tag) rest :=
  Apart.of_closed (opening tag ++ region.attrs) rest

theorem apart_content (tag content rest : Text) : Apart content (closing tag ++ rest) := by
  simpa [closing] using Apart.of_opened content _

theorem apart_closing (tag rest : Text) : Apart (closing tag) rest := by
  simpa [closing] using Apart.of_closed ('<' :: '/' :: tag) rest

include word named nonempty

theorem fill_append_write (template gap rest : Text) (region : Region)
    (whole : (pieces name (region.head tag)).values = []) :
    fill name template (gap ++ (region.write tag ++ rest)) =
      fill name template gap ++
        ((region.fill name template).write tag ++ fill name template rest) := by
  rw [append_write_eq, fill_append word template (apart_gap tag gap region _),
    fill_append word template (apart_head tag region _), fill_of_values word template whole,
    fill_append word template (apart_content tag region.content rest),
    fill_append word template (apart_closing tag rest),
    fill_of_values word template (values_closing word named nonempty), append_write_eq]
  rfl

omit named nonempty in
theorem BringsNoMark.of_append_write
    (brings : BringsNoMark tag name template (gap ++ (region.write tag ++ rest))) :
    BringsNoMark tag name template gap ∧ BringsNoMark tag name template region.content ∧
      BringsNoMark tag name template rest := by
  rw [append_write_eq] at brings
  obtain ⟨here, brings⟩ := brings.of_append word (apart_gap tag gap region _)
  obtain ⟨-, brings⟩ := brings.of_append word (apart_head tag region _)
  obtain ⟨inside, brings⟩ := brings.of_append word (apart_content tag region.content rest)
  exact ⟨here, inside, (brings.of_append word (apart_closing tag rest)).2⟩

theorem isDecomposed_fillPieces {pieces : Pieces Region} (decomposed : IsDecomposed tag pieces)
    (whole : ∀ region ∈ pieces.values, (Placeholder.pieces name (region.head tag)).values = [])
    (brings : BringsNoMark tag name template (pieces.write (Region.write tag))) :
    fill name template (pieces.write (Region.write tag)) =
        (fillPieces name template pieces).write (Region.write tag) ∧
      IsDecomposed tag (fillPieces name template pieces) := by
  obtain ⟨parts, tail⟩ := pieces
  induction parts with
  | nil =>
    have none : (regions tag (fill name template tail)).values = [] := by
      have absent : (regions tag tail).values = [] := by
        rw [decomposed.tail_plain]
        rfl
      rw [Pieces.write_nil] at brings
      rw [values_eq_nil_iff] at absent ⊢
      exact fun order => absent (brings.inOrder word List.infix_rfl order)
    exact ⟨by simp [fillPieces], by simp [fillPieces], regions_of_values none⟩
  | cons part parts ih =>
    obtain ⟨gap, region⟩ := part
    obtain ⟨⟨plain, wellFormed⟩, closed⟩ := List.forall_mem_cons.1 decomposed.parts_closed
    obtain ⟨here, others⟩ := List.forall_mem_cons.1 whole
    rw [Pieces.write_cons] at brings ⊢
    obtain ⟨around, inside, behind⟩ := brings.of_append_write word
    obtain ⟨same, later⟩ := ih ⟨closed, decomposed.tail_plain⟩ others behind
    refine ⟨?_, ?_, later.tail_plain⟩
    next =>
      rw [fill_append_write word named nonempty template gap _ region here, same]
      exact (Pieces.write_cons _ (fill name template gap, region.fill name template) _ _).symm
    next =>
      have kept (mark text : Text) (listed : [mark] <:+: regionMarks tag)
          (brings : BringsNoMark tag name template text) (absent : ¬ mark <:+: text) :
          ¬ mark <:+: fill name template text := by
        rw [← inOrder_singleton_iff] at absent ⊢
        exact fun order => absent (brings.inOrder word listed order)
      have opens := kept (opening tag) gap ⟨[], [['>'], closing tag], rfl⟩ around plain
      have closes := kept (closing tag) region.content ⟨[opening tag, ['>']], [], rfl⟩ inside
        wellFormed.content_open
      exact List.forall_mem_cons.2 ⟨⟨opens, wellFormed.attrs_open, closes⟩, later.parts_closed⟩

theorem regions_fill (brings : BringsNoMark tag name template text)
    (whole : ∀ region ∈ (regions tag text).values,
      (Placeholder.pieces name (region.head tag)).values = []) :
    regions tag (fill name template text) = fillPieces name template (regions tag text) := by
  rw [← write_regions tag text] at brings
  obtain ⟨same, decomposed⟩ :=
    isDecomposed_fillPieces word named nonempty (isDecomposed_regions tag text) whole brings
  rw [write_regions] at same
  rw [same, regions_write named decomposed]

end Word

theorem values_fillPieces (name template : Text) (pieces : Pieces Region) :
    (fillPieces name template pieces).values = pieces.values.map (Region.fill name template) := by
  simp [fillPieces, Pieces.values]

theorem map_ofRegion_fill_eq_iff {values : List Region} :
    (values.map (Region.fill name template)).map Segment.ofRegion = values.map Segment.ofRegion ↔
      ∀ region ∈ values, trim (fill name template region.content) = trim region.content := by
  simp [Segment.ofRegion, Region.fill]

/-- Filling leaves the regions of a text where they are, with their attributes, and fills gaps and
contents. So the segments stay the same just if every content is filled with what it has, as when no
placeholder stands in one; then the gaps alone are filled. -/
theorem segments_fill (named : tag = scriptTag ∨ tag = styleTag)
    (word : ∀ c ∈ name, isWord c = true) (brings : BringsNoMark tag name template text)
    (whole : ∀ region ∈ (regions tag text).values,
      (Placeholder.pieces name (region.head tag)).values = []) :
    regions tag (fill name template text) = fillPieces name template (regions tag text) ∧
      (segments tag (fill name template text) = segments tag text ↔
        ∀ region ∈ (regions tag text).values,
          trim (fill name template region.content) = trim region.content) ∧
      ((∀ region ∈ (regions tag text).values,
          (Placeholder.pieces name region.content).values = []) →
        segments tag (fill name template text) = segments tag text ∧
          regions tag (fill name template text) =
            ⟨(regions tag text).parts.map fun part => (fill name template part.1, part.2),
              fill name template (regions tag text).tail⟩) := by
  have nonempty : tag ≠ [] := by rcases named with rfl | rfl <;> decide
  have same := regions_fill word (isTagName_of_eq named) nonempty brings whole
  have filled : segments tag (fill name template text) = segments tag text ↔
      ∀ region ∈ (regions tag text).values,
        trim (fill name template region.content) = trim region.content := by
    rw [segments, same, values_fillPieces, segments, map_ofRegion_fill_eq_iff]
  refine ⟨same, filled, ?_⟩
  intro none
  have kept : ∀ region ∈ (regions tag text).values, region.fill name template = region := by
    intro region member
    rw [Region.fill, fill_of_values word template (none region member)]
  refine ⟨filled.2 ?_, ?_⟩
  next => exact fun region member => by rw [fill_of_values word template (none region member)]
  next =>
    rw [same, fillPieces]
    congr 1
    refine List.map_congr_left fun part member => ?_
    rw [kept part.2 (List.mem_map.2 ⟨part, member, rfl⟩)]

theorem segments_fill_of_partial_tags :
    let name : Text := "A"
    let template : Text := "</scrip"
    let text : Text :=
      "<A/><script lang>let x = f<A>();</script><p><A /></p><style>p{}</style><script>y</script><A>s"
    (∀ c ∈ name, isWord c = true) ∧ (∀ tag ∈ [scriptTag, styleTag],
        BringsNoMark tag name template text ∧ ∀ region ∈ (regions tag text).values,
          (Placeholder.pieces name (region.head tag)).values = []) ∧
      segments scriptTag (fill name template text) =
        [⟨"lang", "let x = f</scrip();"⟩, ⟨[], "y"⟩] ∧
      segments styleTag (fill name template text) = segments styleTag text := by
  intro name template text
  have word : ∀ c ∈ name, isWord c = true := List.all_eq_true.1 (by decide +kernel)
  have fits : ∀ tag ∈ [scriptTag, styleTag],
      BringsNoMark tag name template text ∧ ∀ region ∈ (regions tag text).values,
        (Placeholder.pieces name (region.head tag)).values = [] := by decide +kernel
  have script := fits scriptTag (by simp)
  have style := fits styleTag (by simp)
  have none : ∀ region ∈ (regions styleTag text).values,
      (Placeholder.pieces name region.content).values = [] := by decide +kernel
  refine ⟨word, fits, ?_, ((segments_fill (.inr rfl) word style.1 style.2).2.2 none).1⟩
  rw [segments, (segments_fill (.inl rfl) word script.1 script.2).1]
  decide +kernel

theorem segments_fill_ne :
    let differs (name template text : Text) : Prop :=
      name.all isWord = true ∧
        (∀ tag ∈ [scriptTag, styleTag], ∀ mark ∈ [opening tag, closing tag], ¬ mark <:+: template) ∧
        segments scriptTag (fill name template text) ≠ segments scriptTag text
    differs "A" "<p/>" "<script>let x = f<A>();</script>" ∧
      differs "A" "<p/>" "<script <A/>x</script>" ∧
      differs "script" "<p/>" "<script>x</script>" ∧
      differs "A" "ipt>x" "<scr<A/></script>" ∧
      differs "A" "<scr" "<A/>ipt>x</script>" ∧
      differs "A" [] "<script>x</scr<A/>ipt></script>" := by
  decide +kernel

end Inlay.Markup
