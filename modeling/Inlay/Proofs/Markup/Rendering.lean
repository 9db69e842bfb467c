import Inlay.Proofs.Markup.KeyedMerge

set_option autoImplicit false

namespace Inlay.Markup

open Text

structure Segment.Canonical (tag : Text) (segment : Segment) : Prop extends segment.Tidy tag where
  content_trimmed : trim segment.content = segment.content

namespace Segment

variable {tag text : Text} {segment : Segment}

instance (tag : Text) (segment : Segment) : Decidable (segment.Canonical tag) :=
  decidable_of_iff (segment.Tidy tag ∧ trim segment.content = segment.content)
    ⟨fun h => ⟨h.1, h.2⟩, fun h => ⟨h.1, h.2⟩⟩

theorem ofRegion_toRegion (canonical : segment.Canonical tag) :
    ofRegion segment.toRegion = segment := by
  have attrs := toRegion_attrs_trimmed canonical.attrs_trimmed segment.content
  have content : trim segment.toRegion.content = segment.content := canonical.content_trimmed
  rw [ofRegion, attrs, content]

theorem canonical_of_mem_segments (member : segment ∈ segments tag text) :
    segment.Canonical tag := by
  refine ⟨tidy_of_mem_segments member, ?_⟩
  obtain ⟨region, -, rfl⟩ := List.mem_map.1 member
  exact trim_trim region.content

end Segment

-- No gap between the segments, before the first or behind the last, opens a region.
def HasPlainGaps (tag : Text) (pieces : Pieces Segment) : Prop :=
  (∀ part ∈ pieces.parts, ¬ opening tag <:+: part.1) ∧ ¬ opening tag <:+: pieces.tail

instance (tag : Text) (pieces : Pieces Segment) : Decidable (HasPlainGaps tag pieces) :=
  inferInstanceAs (Decidable (_ ∧ _))

-- The regions that the segments of a text are written as.
def asRegions (pieces : Pieces Segment) : Pieces Region :=
  ⟨pieces.parts.map fun (gap, segment) => (gap, segment.toRegion), pieces.tail⟩

section Written

variable {tag : Text} {pieces : Pieces Segment}

theorem write_asRegions (tag : Text) (pieces : Pieces Segment) :
    (asRegions pieces).write (Region.write tag) = pieces.write (Segment.write tag) := by
  simp [asRegions, Pieces.write, List.flatMap_map, Segment.write]

theorem isDecomposed_asRegions (plain : HasPlainGaps tag pieces)
    (canonical : ∀ segment ∈ pieces.values, segment.Canonical tag) :
    IsDecomposed tag (asRegions pieces) := by
  refine ⟨?_, regions_of_plain plain.2⟩
  intro part member
  obtain ⟨⟨gap, segment⟩, inside, rfl⟩ := List.mem_map.1 member
  have tidy := (canonical segment (List.mem_map.2 ⟨_, inside, rfl⟩)).toTidy
  exact ⟨plain.1 _ inside, Segment.toRegion_wellFormed tidy.attrs_open tidy.content_open⟩

theorem segments_write (named : IsTagName tag) (plain : HasPlainGaps tag pieces)
    (canonical : ∀ segment ∈ pieces.values, segment.Canonical tag) :
    segments tag (pieces.write (Segment.write tag)) = pieces.values := by
  have read := regions_write named (isDecomposed_asRegions plain canonical)
  have values : (asRegions pieces).values = pieces.values.map Segment.toRegion := by
    simp [asRegions, Pieces.values, Function.comp_def]
  rw [segments, ← write_asRegions, read, values, List.map_map]
  conv_rhs => rw [← List.map_id pieces.values]
  exact List.map_congr_left fun segment member => Segment.ofRegion_toRegion (canonical segment member)

end Written

/-- Scanning undoes writing, whatever stands between the segments and opens no region of the tag.
Every scan gives segments of this kind, so what was read can be written among other texts and is
read again. -/
theorem segments_interleaved {tag : Text} (named : tag = scriptTag ∨ tag = styleTag) :
    (∀ pieces : Pieces Segment, HasPlainGaps tag pieces →
      (∀ segment ∈ pieces.values, segment.Canonical tag) →
      segments tag (pieces.write (Segment.write tag)) = pieces.values) ∧
    (∀ text, ∀ segment ∈ segments tag text, segment.Canonical tag) ∧
    ∀ text, ∀ pieces : Pieces Segment, HasPlainGaps tag pieces →
      pieces.values = segments tag text →
      segments tag (pieces.write (Segment.write tag)) = segments tag text := by
  have name := isTagName_of_eq named
  refine ⟨fun _ => segments_write name, fun _ _ => Segment.canonical_of_mem_segments, ?_⟩
  intro text pieces plain same
  rw [segments_write name plain, same]
  intro segment member
  exact Segment.canonical_of_mem_segments (same ▸ member)

theorem segments_interleaved_of_partial_tags :
    let pieces : Pieces Segment :=
      ⟨[("<scrip <", ⟨"lang='<script'", "</scrip"⟩), ("t></script><style>", ⟨[], []⟩),
        ([], ⟨[], "<script>"⟩)], "</script><"⟩
    HasPlainGaps scriptTag pieces ∧ (∀ segment ∈ pieces.values, segment.Canonical scriptTag) ∧
      segments scriptTag (pieces.write (Segment.write scriptTag)) = pieces.values := by
  intro pieces
  have plain : HasPlainGaps scriptTag pieces := by decide
  have canonical : ∀ segment ∈ pieces.values, segment.Canonical scriptTag := by decide
  exact ⟨plain, canonical, (segments_interleaved (.inl rfl)).1 pieces plain canonical⟩

end Inlay.Markup
