import Inlay.Proofs.Markup.Remainder

set_option autoImplicit false

namespace Inlay.Markup

open Text

structure IsDivision (tag text : Text) (division : Pieces Region) : Prop where
  whole : division.write (Region.write tag) = text
  regions : ∀ region ∈ division.values, region.WellFormed tag
  gaps : ∀ part ∈ division.parts, ¬ opening tag <:+: part.1
  tail : ∀ front inside attrs inner, division.tail = front ++ (opening tag ++ inside) →
    inside = attrs ++ '>' :: inner → ¬ closing tag <:+: inner

variable {tag text : Text} {division : Pieces Region}

theorem inOrder_regionMarks_iff : InOrder (regionMarks tag) text ↔
    ∃ front inside attrs inner, text = front ++ (opening tag ++ inside) ∧
      inside = attrs ++ '>' :: inner ∧ closing tag <:+: inner := by
  constructor
  next =>
    rintro ⟨front, inside, opened, attrs, inner, ended, closed⟩
    exact ⟨front, inside, attrs, inner, opened, ended, inOrder_singleton_iff.1 closed⟩
  next =>
    rintro ⟨front, inside, attrs, inner, opened, ended, closed⟩
    exact ⟨front, inside, opened, attrs, inner, ended, inOrder_singleton_iff.2 closed⟩

-- The tail of a division is a text in which the search finds nothing.
theorem regions_eq_tail_iff : regions tag text = ⟨[], text⟩ ↔
    ∀ front inside attrs inner, text = front ++ (opening tag ++ inside) →
      inside = attrs ++ '>' :: inner → ¬ closing tag <:+: inner := by
  have none : regions tag text = ⟨[], text⟩ ↔ (regions tag text).values = [] := by
    refine ⟨fun same => ?_, regions_of_values⟩
    rw [same]
    rfl
  rw [none, values_eq_nil_iff, inOrder_regionMarks_iff]
  simp only [not_exists, not_and]

theorem isDivision_iff_isDecomposed :
    IsDivision tag text division ↔
      division.write (Region.write tag) = text ∧ IsDecomposed tag division := by
  constructor
  next =>
    intro divides
    refine ⟨divides.whole, fun part member => ?_, regions_eq_tail_iff.2 divides.tail⟩
    exact ⟨divides.gaps part member, divides.regions part.2 (List.mem_map_of_mem member)⟩
  next =>
    rintro ⟨whole, parts, tail⟩
    refine ⟨whole, ?_, fun part member => (parts part member).1, regions_eq_tail_iff.1 tail⟩
    intro region member
    obtain ⟨part, inside, rfl⟩ := List.mem_map.1 member
    exact (parts part inside).2

theorem isDivision_iff (named : IsTagName tag) :
    IsDivision tag text division ↔ division = regions tag text := by
  rw [isDivision_iff_isDecomposed]
  constructor
  next =>
    rintro ⟨rfl, decomposed⟩
    exact (regions_write named decomposed).symm
  next =>
    rintro rfl
    exact ⟨write_regions tag text, isDecomposed_regions tag text⟩

/-- Every text has one division. The segments are what its regions say once padding is trimmed, and
the text without regions is its gaps put together. -/
theorem division_unique (named : tag = scriptTag ∨ tag = styleTag) (text : Text) :
    (∃! division, IsDivision tag text division) ∧
      ∀ division, IsDivision tag text division →
        segments tag text =
            division.values.map (fun region => ⟨trim region.attrs, trim region.content⟩) ∧
          withoutRegions tag text = division.gaps.flatten := by
  have found {division : Pieces Region} :
      IsDivision tag text division ↔ division = regions tag text :=
    isDivision_iff (isTagName_of_eq named)
  refine ⟨⟨regions tag text, found.2 rfl, fun _ => found.1⟩, ?_⟩
  intro division divides
  obtain rfl := found.1 divides
  exact ⟨rfl, (flatten_gaps tag text).symm⟩

theorem division_unique_of_open_tail :
    let text : Text := "<i><scripts a>\n<script>b</script>c</script><script></script d>"
    let division : Pieces Region :=
      ⟨[("<i>", ⟨"s a", "\n<script>b"⟩)], "c</script><script></script d>"⟩
    (scriptTag = scriptTag ∨ scriptTag = styleTag) ∧ IsDivision scriptTag text division ∧
      segments scriptTag text = [⟨"s a", "<script>b"⟩] ∧
      withoutRegions scriptTag text = ("<i>c</script><script></script d>" : String) := by
  intro text division
  have divides : IsDivision scriptTag text division := by
    have parts : division.parts = (regions scriptTag text).parts := by decide +kernel
    have tail : division.tail = (regions scriptTag text).tail := by decide +kernel
    rw [isDivision_iff isTagName_script]
    generalize regions scriptTag text = found at parts tail
    cases found
    cases parts
    cases tail
    rfl
  obtain ⟨said, rest⟩ := (division_unique (.inl rfl) text).2 division divides
  exact ⟨.inl rfl, divides, said.trans (by decide +kernel), rest.trans (by decide +kernel)⟩

end Inlay.Markup
