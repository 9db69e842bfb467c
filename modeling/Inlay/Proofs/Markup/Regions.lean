import Inlay.Markup
import Inlay.Proofs.Text.Cut
import Inlay.Proofs.Text.Search

set_option autoImplicit false

namespace Inlay.Markup

open Text

structure IsTagName (tag : Text) : Prop where
  not_mem_open : '<' ∉ tag
  not_mem_close : '>' ∉ tag
  not_mem_line : '\n' ∉ tag

theorem isTagName_script : IsTagName scriptTag := by
  constructor <;> decide

theorem isTagName_style : IsTagName styleTag := by
  constructor <;> decide

theorem isTagName_of_eq {tag : Text} (named : tag = scriptTag ∨ tag = styleTag) :
    IsTagName tag := by
  rcases named with rfl | rfl
  next => exact isTagName_script
  next => exact isTagName_style

structure Region.WellFormed (tag : Text) (region : Region) : Prop where
  attrs_open : '>' ∉ region.attrs
  content_open : ¬ closing tag <:+: region.content

theorem closing_eq (tag : Text) : closing tag = '<' :: ('/' :: (tag ++ ['>'])) := by
  simp [closing]

theorem IsTagName.not_mem_closing {tag : Text} (named : IsTagName tag) :
    '<' ∉ '/' :: (tag ++ ['>']) := by
  simp [named.not_mem_open]

theorem regions_eq (tag text : Text) (previous : Option Char) :
    (regionForm tag).pieces previous text = regions tag text :=
  (regionForm tag).pieces_congr rfl

theorem cut?_bracket {attrs : Text} (rest : Text) (plain : '>' ∉ attrs) :
    cut? ['>'] (attrs ++ '>' :: rest) = some (attrs, rest) := by
  refine cut?_append rest (by simp) ?_
  intro inside
  exact plain (inside.subset (by simp))

namespace Region

theorem wellFormed_of_read? {tag text rest : Text} {region : Region}
    (found : read? tag text = some (region, rest)) : region.WellFormed tag := by
  simp only [read?, Option.bind_eq_bind, Option.bind_eq_some_iff, Prod.exists] at found
  obtain ⟨inside, _, attrs, inner, ended, content, after, closed, same⟩ := found
  simp only [Option.pure_def, Option.some.injEq, Prod.mk.injEq] at same
  obtain ⟨rfl, rfl⟩ := same
  refine ⟨?_, not_infix_of_cut? (by simp [closing]) closed⟩
  intro member
  have absent := not_infix_of_cut? (by simp) ended
  exact absent ((List.singleton_infix_iff _ _).2 member)

theorem read?_write {tag : Text} {region : Region} (named : IsTagName tag)
    (wellFormed : region.WellFormed tag) (rest : Text) :
    read? tag (region.write tag ++ rest) = some (region, rest) := by
  have whole : region.write tag ++ rest =
      opening tag ++ (region.attrs ++ '>' :: (region.content ++ (closing tag ++ rest))) := by
    simp [write]
  have closed : cut? (closing tag) (region.content ++ (closing tag ++ rest)) =
      some (region.content, rest) := by
    have absent := wellFormed.content_open
    rw [closing_eq] at absent ⊢
    exact cut?_append rest named.not_mem_closing absent
  rw [whole]
  simp [read?, cut?_bracket _ wellFormed.attrs_open, closed]

theorem read?_isSome (tag attrs : Text) {inner : Text} (closed : closing tag <:+: inner) :
    (read? tag (opening tag ++ (attrs ++ '>' :: inner))).isSome = true := by
  obtain ⟨front, behind, ended, suffix⟩ := cut?_of_mem '>' attrs inner
  have closes : cut? (closing tag) behind ≠ none := by
    rw [Ne, cut?_eq_none_iff, not_not]
    exact closed.trans suffix.isInfix
  obtain ⟨⟨content, rest⟩, cut⟩ := Option.ne_none_iff_exists'.1 closes
  simp [read?, ended, cut]

end Region

theorem regions_of_read? {tag text rest : Text} {region : Region}
    (found : Region.read? tag text = some (region, rest)) :
    regions tag text = (regions tag rest).find region := by
  have read : (regionForm tag).read none text = some (region, rest) := found
  unfold regions
  rw [(regionForm tag).pieces_of_read read, regions_eq, ← regions]

theorem regions_cons {tag text : Text} {c : Char} (missing : Region.read? tag (c :: text) = none) :
    regions tag (c :: text) = (regions tag text).skip c := by
  unfold regions
  rw [(regionForm tag).pieces_cons_of_none missing, regions_eq, ← regions]

theorem read?_eq_none {tag text : Text} (plain : ¬ opening tag <+: text) :
    Region.read? tag text = none := by
  simp [Region.read?, after?_eq_none_iff.2 plain]

theorem regions_of_plain {tag text : Text} (plain : ¬ opening tag <:+: text) :
    regions tag text = ⟨[], text⟩ := by
  induction text with
  | nil => simp [regions]
  | cons c text ih =>
    rw [List.infix_cons_iff, not_or] at plain
    rw [regions_cons (read?_eq_none plain.1), ih plain.2]
    rfl

theorem opening_prefix_of_append_write {tag gap rest : Text} {c : Char} {region : Region}
    (named : IsTagName tag) (front : opening tag <+: c :: gap ++ (region.write tag ++ rest)) :
    opening tag <+: c :: gap := by
  simp only [Region.write, opening, List.cons_append] at front ⊢
  exact cons_prefix_of_append_cons named.not_mem_open front

theorem regions_append_write {tag gap : Text} {region : Region} (named : IsTagName tag)
    (plain : ¬ opening tag <:+: gap) (wellFormed : region.WellFormed tag) (rest : Text) :
    regions tag (gap ++ (region.write tag ++ rest)) =
      ⟨(gap, region) :: (regions tag rest).parts, (regions tag rest).tail⟩ := by
  induction gap with
  | nil =>
    rw [List.nil_append, regions_of_read? (Region.read?_write named wellFormed rest)]
    rfl
  | cons c gap ih =>
    rw [List.infix_cons_iff, not_or] at plain
    have missing : Region.read? tag (c :: gap ++ (region.write tag ++ rest)) = none := by
      apply read?_eq_none
      intro front
      exact plain.1 (opening_prefix_of_append_write named front)
    rw [List.cons_append] at missing ⊢
    rw [regions_cons missing, ih plain.2]
    rfl

-- A part of a decomposition: a gap that opens no region, and a well formed region.
def IsPart (tag : Text) (part : Text × Region) : Prop :=
  ¬ opening tag <:+: part.1 ∧ part.2.WellFormed tag

structure IsDecomposed (tag : Text) (pieces : Pieces Region) : Prop where
  parts_closed : ∀ part ∈ pieces.parts, IsPart tag part
  tail_plain : regions tag pieces.tail = ⟨[], pieces.tail⟩

theorem regions_write {tag : Text} {pieces : Pieces Region} (named : IsTagName tag)
    (decomposed : IsDecomposed tag pieces) :
    regions tag (pieces.write (Region.write tag)) = pieces := by
  obtain ⟨parts, tail⟩ := pieces
  induction parts with
  | nil => simpa using decomposed.tail_plain
  | cons part parts ih =>
    obtain ⟨plain, wellFormed⟩ := decomposed.parts_closed part (by simp)
    have later : IsDecomposed tag ⟨parts, tail⟩ :=
      ⟨fun other member => decomposed.parts_closed other (by simp [member]), decomposed.tail_plain⟩
    rw [Pieces.write_cons, regions_append_write named plain wellFormed, ih later]

theorem isDecomposed_find {tag : Text} {pieces : Pieces Region} {region : Region}
    (decomposed : IsDecomposed tag pieces) (wellFormed : region.WellFormed tag) :
    IsDecomposed tag (pieces.find region) := by
  refine ⟨?_, decomposed.tail_plain⟩
  intro part member
  rcases List.mem_cons.1 member with rfl | member
  next => exact ⟨by simp [opening], wellFormed⟩
  next => exact decomposed.parts_closed part member

theorem isDecomposed_skip {tag text : Text} {c : Char}
    (missing : Region.read? tag (c :: text) = none)
    (decomposed : IsDecomposed tag (regions tag text)) :
    IsDecomposed tag ((regions tag text).skip c) := by
  have whole := write_regions tag text
  cases shape : regions tag text with
  | mk parts tail =>
    rw [shape] at whole decomposed
    cases parts with
    | nil =>
      have same : tail = text := by simpa using whole
      subst same
      refine ⟨by simp [Pieces.skip], ?_⟩
      simp only [Pieces.skip]
      rw [regions_cons missing, shape]
      rfl
    | cons part parts =>
      obtain ⟨gap, region⟩ := part
      obtain ⟨plain, wellFormed⟩ := decomposed.parts_closed (gap, region) (by simp)
      -- An opening at the front would have the region's bracket and closing behind it.
      have closed : ¬ opening tag <+: c :: gap := by
        rintro ⟨more, front⟩
        have text_eq : c :: text = opening tag ++ ((more ++ opening tag ++ region.attrs) ++ '>' ::
            (region.content ++ closing tag ++ Pieces.write (Region.write tag) ⟨parts, tail⟩)) := by
          rw [← whole, Pieces.write_cons, ← List.cons_append, ← front]
          simp [Region.write]
        have found := Region.read?_isSome tag (more ++ opening tag ++ region.attrs)
          (List.infix_append region.content (closing tag)
            (Pieces.write (Region.write tag) ⟨parts, tail⟩))
        rw [← text_eq, missing] at found
        cases found
      refine ⟨?_, decomposed.tail_plain⟩
      intro other member
      rcases List.mem_cons.1 member with rfl | member
      next => exact ⟨by rw [List.infix_cons_iff, not_or]; exact ⟨closed, plain⟩, wellFormed⟩
      next => exact decomposed.parts_closed other (by simp [member])

theorem isDecomposed_regions (tag text : Text) : IsDecomposed tag (regions tag text) := by
  induction length : text.length using Nat.strong_induction_on generalizing text with
  | _ n ih =>
    cases text with
    | nil => exact ⟨by simp [regions], by simp [regions]⟩
    | cons c text =>
      cases found : Region.read? tag (c :: text) with
      | none =>
        rw [regions_cons found]
        exact isDecomposed_skip found (ih text.length (by simp [← length]) text rfl)
      | some result =>
        obtain ⟨region, rest⟩ := result
        have read : (regionForm tag).read none (c :: text) = some (region, rest) := found
        have shorter := (regionForm tag).shorter read
        rw [regions_of_read? found]
        exact isDecomposed_find (ih rest.length (length ▸ shorter) rest rfl)
          (Region.wellFormed_of_read? found)

end Inlay.Markup
