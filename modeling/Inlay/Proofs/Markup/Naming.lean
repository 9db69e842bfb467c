import Inlay.Markup
import Inlay.Proofs.Markup.KeyedMerge
import Inlay.Proofs.Text.Seam

set_option autoImplicit false

namespace Inlay.Text.Recogniser

variable {A : Type}

def filter (form : Recogniser A) (p : A → Bool) : Recogniser A where
  read previous text := (form.read previous text).filter fun found => p found.1
  advances found := form.advances (Option.filter_eq_some_iff.1 found).1

variable {form : Recogniser A} {p : A → Bool}

theorem filter_of_mem_values {previous : Option Char} {text : Text} {value : A}
    (member : value ∈ ((form.filter p).pieces previous text).values) : p value = true := by
  obtain ⟨reached, place, rest, found⟩ := exists_read_of_mem_values member
  exact (Option.filter_eq_some_iff.1 found).2

theorem pieces_filter_eq_iff (form : Recogniser A) (p : A → Bool) (previous : Option Char)
    (text : Text) :
    form.pieces previous text = (form.filter p).pieces previous text ↔
      ∀ value ∈ (form.pieces previous text).values, p value = true := by
  constructor
  next =>
    intro same value member
    rw [same] at member
    exact filter_of_mem_values member
  next =>
    intro kept
    fun_induction Recogniser.pieces form previous text with
    | case1 previous => rw [pieces_nil]
    | case2 previous c text value rest found _ ih =>
      rw [Pieces.values_find] at kept
      obtain ⟨here, later⟩ := List.forall_mem_cons.1 kept
      have read : (form.filter p).read previous (c :: text) = some (value, rest) :=
        Option.filter_eq_some_iff.2 ⟨found, here⟩
      rw [pieces_of_read _ read, ih later]
    | case3 previous c text missing ih =>
      rw [Pieces.values_skip] at kept
      have read : (form.filter p).read previous (c :: text) = none := by simp [filter, missing]
      rw [pieces_cons_of_none _ read, ih kept]

end Inlay.Text.Recogniser

namespace Inlay.Markup

open Text

-- What ends the name of an element where its bracket does not: white space or a slash.
def endsName (c : Char) : Bool :=
  isBlank c || isPadding c || c == '/'

def Region.IsNamed (region : Region) : Prop :=
  region.attrs.head?.all endsName = true

instance (region : Region) : Decidable region.IsNamed :=
  inferInstanceAs (Decidable (region.attrs.head?.all endsName = true))

def namedRegions (tag text : Text) : Pieces Region :=
  ((regionForm tag).filter fun region => decide region.IsNamed).pieces none text

def NamesEnd (tag text : Text) : Prop :=
  ∀ place ∈ text.tails, ∀ rest ∈ after? (opening tag) place,
    rest.head?.all (fun c => c == '>' || endsName c) = true

instance (tag text : Text) : Decidable (NamesEnd tag text) :=
  inferInstanceAs (Decidable (∀ place ∈ text.tails, _))

variable {tag text : Text} {segment : Segment} {region : Region}

theorem isNamed_iff : region.IsNamed ↔ ∀ c ∈ region.attrs.head?, endsName c = true :=
  Option.all_eq_true _ _

theorem wellFormed_of_mem_values (member : region ∈ (regions tag text).values) :
    region.WellFormed tag := by
  obtain ⟨part, inside, rfl⟩ := List.mem_map.1 member
  exact ((isDecomposed_regions tag text).parts_closed part inside).2

theorem NamesEnd.isNamed (ends : NamesEnd tag text) (member : region ∈ (regions tag text).values) :
    region.IsNamed := by
  rw [isNamed_iff]
  intro c first
  have inside := Pieces.isInfix_write_of_mem (Region.write tag) member
  rw [write_regions] at inside
  obtain ⟨front, back, whole⟩ := inside
  have place : region.write tag ++ back ∈ text.tails :=
    (List.mem_tails _ _).2 ⟨front, by simp [← whole]⟩
  have found : after? (opening tag) (region.write tag ++ back) =
      some (region.attrs ++ '>' :: region.content ++ closing tag ++ back) :=
    after?_eq_some_iff.2 (by simp [Region.write])
  have behind : c ∈ (region.attrs ++ '>' :: region.content ++ closing tag ++ back).head? := by
    simp [List.head?_append, Option.mem_def.1 first]
  have ended := (Option.all_eq_true _ _).1 (ends _ place _ found) c behind
  have inner : c ≠ '>' := by
    rintro rfl
    exact (wellFormed_of_mem_values member).attrs_open (List.mem_of_mem_head? first)
  simpa [inner] using ended

theorem regions_eq_namedRegions_iff (tag text : Text) :
    regions tag text = namedRegions tag text ↔
      ∀ region ∈ (regions tag text).values, region.IsNamed := by
  have same :=
    (regionForm tag).pieces_filter_eq_iff (fun region => decide region.IsNamed) none text
  simp only [decide_eq_true_eq] at same
  exact same

-- A segment is written with a space between the tag and its attributes.
theorem isNamed_toRegion (segment : Segment) : segment.toRegion.IsNamed := by
  rw [isNamed_iff]
  intro c first
  by_cases empty : segment.attrs = []
  next => simp [Segment.toRegion, empty] at first
  next =>
    have space : c = ' ' := by simpa [Segment.toRegion, empty, eq_comm] using first
    subst space
    decide

theorem isNamed_or_mem_of_absorbFirst? {parts joined : List (Text × Region)}
    (found : absorbFirst? segment parts = some joined) (member : region ∈ joined.map Prod.snd) :
    region.IsNamed ∨ region ∈ parts.map Prod.snd := by
  induction parts generalizing joined with
  | nil => cases found
  | cons part parts ih =>
    obtain ⟨gap, first⟩ := part
    simp only [absorbFirst?] at found
    split at found
    next =>
      cases found
      rcases List.mem_cons.1 member with rfl | later
      next => exact .inl (isNamed_toRegion _)
      next => exact .inr (List.mem_cons_of_mem _ later)
    next =>
      obtain ⟨rest, inner, rfl⟩ := Option.map_eq_some_iff.1 found
      rcases List.mem_cons.1 member with rfl | later
      next => exact .inr List.mem_cons_self
      next => exact (ih inner later).imp_right (List.mem_cons_of_mem _)

theorem isNamed_or_mem_of_mergeSegment (named : IsTagName tag) (tidy : segment.Tidy tag)
    (ready : IsSettled tag text ∨ segment.attrs ∈ keys (entries tag text))
    (member : region ∈ (regions tag (mergeSegment tag text segment)).values) :
    region.IsNamed ∨ region ∈ (regions tag text).values := by
  cases found : absorbFirst? segment (regions tag text).parts with
  | some joined =>
    rw [regions_mergeSegment_of_some named tidy found] at member
    exact isNamed_or_mem_of_absorbFirst? found member
  | none =>
    have missing := absorbFirst?_eq_none_iff.1 found
    rw [← entries_eq] at missing
    rw [regions_mergeSegment_of_none named tidy (ready.resolve_right missing) found] at member
    simp only [Pieces.values, List.map_append, List.mem_append] at member
    rcases member with old | new
    next => exact .inr old
    next =>
      rw [List.mem_singleton.1 new]
      exact .inl (isNamed_toRegion segment)

theorem isNamed_or_mem_of_mergeSegments {added : List Segment} (named : IsTagName tag)
    (tidy : ∀ segment ∈ added, segment.Tidy tag)
    (ready : IsSettled tag text ∨ ∀ segment ∈ added, segment.attrs ∈ keys (entries tag text))
    (member : region ∈ (regions tag (mergeSegments tag text added)).values) :
    region.IsNamed ∨ region ∈ (regions tag text).values := by
  unfold mergeSegments at member
  induction added generalizing text with
  | nil => exact .inr member
  | cons segment added ih =>
    obtain ⟨here, later⟩ := List.forall_mem_cons.1 tidy
    rcases ih later (ready_mergeSegment named here ready) member with whole | before
    next => exact .inl whole
    next =>
      have first := ready.imp_right (· segment List.mem_cons_self)
      exact isNamed_or_mem_of_mergeSegment named here first before

/-- A text is read as by a search for whole names just if no region has a longer name, as when every
opening in it is followed by what ends a name. A region of a longer name that stands in a text with
segments merged into it stood there before. -/
theorem regions_named (named : tag = scriptTag ∨ tag = styleTag) (text : Text) :
    (regions tag text = namedRegions tag text ↔
        ∀ region ∈ (regions tag text).values, region.IsNamed) ∧
      (NamesEnd tag text → regions tag text = namedRegions tag text) ∧
      ∀ added : List Segment, (∀ segment ∈ added, segment.Tidy tag) →
        (IsSettled tag text ∨ ∀ segment ∈ added, segment.attrs ∈ keys (entries tag text)) →
        ∀ region ∈ (regions tag (mergeSegments tag text added)).values,
          region.IsNamed ∨ region ∈ (regions tag text).values := by
  have same := regions_eq_namedRegions_iff tag text
  refine ⟨same, fun ends => same.2 fun region member => ends.isNamed member, ?_⟩
  intro added tidy ready region member
  exact isNamed_or_mem_of_mergeSegments (isTagName_of_eq named) tidy ready member

theorem regions_named_of_other_elements :
    let text : Text := "<styl><style/>a</style><style lang>b</style><styl></style>"
    let longer : Text := "<styled>a</style><style>b</style>"
    let added : List Segment := [⟨"d", "c"⟩]
    NamesEnd styleTag text ∧ regions styleTag text = namedRegions styleTag text ∧
      (∀ segment ∈ added, segment.Tidy styleTag) ∧ IsSettled styleTag longer ∧
      ∀ region ∈ (regions styleTag (mergeSegments styleTag longer added)).values,
        region.IsNamed ∨ region ∈ (regions styleTag longer).values := by
  intro text longer added
  have ends : NamesEnd styleTag text := by decide +kernel
  have tidy : ∀ segment ∈ added, segment.Tidy styleTag := by decide +kernel
  have settled : IsSettled styleTag longer := by
    unfold IsSettled
    decide +kernel
  have here := (regions_named (.inr rfl) text).2.1 ends
  exact ⟨ends, here, tidy, settled, (regions_named (.inr rfl) longer).2.2 added tidy (.inl settled)⟩

theorem regions_not_named :
    let block : Text := "<styled-b>x</styled-b><style>p{}</style>"
    segments scriptTag "<scripty>x</script>" = [⟨"y", "x"⟩] ∧
      (∃ region ∈ (regions styleTag block).values, ¬ region.IsNamed) ∧ residual block = [] ∧
      mergeScripts "<scripty>a</script>" [⟨"y", "b"⟩] = ("<script y>a\nb</script>" : String) := by
  decide +kernel

end Inlay.Markup
