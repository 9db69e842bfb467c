import Inlay.Proofs.Markup.Separation
import Inlay.Proofs.Text.Seam
import Inlay.Proofs.Text.Search
import Inlay.Proofs.Text.Trim

set_option autoImplicit false

namespace Inlay.Markup

open Text

variable {tag other text part : Text}

-- What stands in a region in this order, and makes a region wherever it does.
def regionMarks (tag : Text) : List Text :=
  [opening tag, ['>'], closing tag]

theorem inOrder_write (tag : Text) (region : Region) :
    InOrder (regionMarks tag) (region.write tag) := by
  refine ⟨[], region.attrs ++ '>' :: region.content ++ closing tag, by simp [Region.write], ?_⟩
  exact ⟨region.attrs, region.content ++ closing tag, by simp, region.content, [], by simp, trivial⟩

theorem values_ne_nil_of_suffix {place : Text} (suffix : place <:+ text)
    (found : (Region.read? tag place).isSome = true) : (regions tag text).values ≠ [] := by
  induction text with
  | nil =>
    obtain rfl := List.suffix_nil.1 suffix
    obtain ⟨result, read⟩ := Option.isSome_iff_exists.1 found
    have shape := Region.eq_of_read? read
    simp [Region.write, opening] at shape
  | cons c text ih =>
    cases read : Region.read? tag (c :: text) with
    | some result =>
      obtain ⟨region, rest⟩ := result
      rw [regions_of_read? read, Pieces.values_find]
      exact List.cons_ne_nil _ _
    | none =>
      rw [regions_cons read, Pieces.values_skip]
      rcases List.suffix_cons_iff.1 suffix with rfl | later
      next => simp [read] at found
      next => exact ih later

theorem values_eq_nil_iff : (regions tag text).values = [] ↔ ¬ InOrder (regionMarks tag) text := by
  constructor
  next =>
    rintro none ⟨front, inside, rfl, attrs, inner, rfl, content, rest, rfl, -⟩
    refine values_ne_nil_of_suffix (List.suffix_append front _) ?_ none
    exact Region.read?_isSome tag attrs ⟨content, rest, by simp⟩
  next =>
    intro absent
    by_contra some
    obtain ⟨region, member⟩ := List.exists_mem_of_ne_nil _ some
    apply absent
    rw [← write_regions tag text]
    exact (inOrder_write tag region).of_isInfix (Pieces.isInfix_write_of_mem _ member)

theorem values_of_isInfix (none : (regions tag text).values = []) (inside : part <:+: text) :
    (regions tag part).values = [] := by
  rw [values_eq_nil_iff] at none ⊢
  exact fun order => none (order.of_isInfix inside)

theorem flatten_gaps (tag text : Text) : (gaps tag text).flatten = withoutRegions tag text := by
  simp [gaps, withoutRegions, Pieces.write, List.flatMap]

-- A region that is taken out is at least one character long.
theorem length_withoutRegions_add_le (tag text : Text) :
    (withoutRegions tag text).length + (regions tag text).values.length ≤ text.length := by
  conv_rhs => rw [← write_regions tag text]
  rw [withoutRegions]
  obtain ⟨parts, tail⟩ := regions tag text
  induction parts with
  | nil => simp [Pieces.values]
  | cons part parts ih =>
    have written := List.length_pos_iff.2 (Region.write_ne_nil tag part.2)
    simp only [Pieces.values, Pieces.write_cons, List.map_cons, List.length_append,
      List.length_cons, List.length_nil] at ih ⊢
    omega

theorem values_eq_nil_of_length_le (shorter : text.length ≤ (withoutRegions tag text).length) :
    (regions tag text).values = [] := by
  have removed := length_withoutRegions_add_le tag text
  rw [← List.length_eq_zero_iff]
  omega

theorem regions_of_values (none : (regions tag text).values = []) :
    regions tag text = ⟨[], text⟩ :=
  Recogniser.pieces_of_values none

theorem withoutRegions_of_values (none : (regions tag text).values = []) :
    withoutRegions tag text = text := by
  rw [withoutRegions, regions_of_values none, Pieces.write_nil]

theorem values_withoutRegions (joins : JoinsNo (opening tag) (gaps tag text)) :
    (regions tag (withoutRegions tag text)).values = [] := by
  have decomposed := isDecomposed_regions tag text
  rw [values_eq_nil_iff, ← flatten_gaps]
  intro order
  have last : InOrder (regionMarks tag) (regions tag text).tail := by
    refine InOrder.of_absent ?_ joins order
    intro gap member
    obtain ⟨part, inside, rfl⟩ := List.mem_map.1 member
    exact (decomposed.parts_closed part inside).1
  refine values_eq_nil_iff.1 ?_ last
  rw [decomposed.tail_plain]
  rfl

theorem values_withoutRegions_of_none (none : (regions tag text).values = [])
    (openings : JoinsNo (opening tag) (gaps other text))
    (closings : JoinsNo (closing tag) (gaps other text)) :
    (regions tag (withoutRegions other text)).values = [] := by
  have replaced : List.Forall₂ (Replaces (regionMarks tag)) (gaps other text)
      ((regions other text).parts.map (fun part => part.1 ++ part.2.write other) ++
        [(regions other text).tail]) := by
    refine List.rel_append ?_ (.cons (fun _ _ order => order) .nil)
    rw [List.forall₂_map_left_iff, List.forall₂_map_right_iff, List.forall₂_same]
    exact fun part _ inner _ order => order.before (part.2.write other)
  have joins : ∀ mark ∈ regionMarks tag, JoinsNo mark (gaps other text) := by
    simp [regionMarks, openings, closings, JoinsNo.of_char]
  rw [values_eq_nil_iff] at none ⊢
  intro order
  apply none
  rw [← flatten_gaps] at order
  have whole := order.replace joins replaced
  rw [← write_regions other text]
  simpa [Pieces.write, List.flatMap] using whole

structure IsBare (text : Text) : Prop where
  scripts : (regions scriptTag text).values = []
  styles : (regions styleTag text).values = []

instance (text : Text) : Decidable (IsBare text) :=
  decidable_of_iff ((regions scriptTag text).values = [] ∧ (regions styleTag text).values = [])
    ⟨fun h => ⟨h.1, h.2⟩, fun h => ⟨h.1, h.2⟩⟩

theorem residual_of_isBare (bare : IsBare text) : residual text = trim text := by
  rw [residual, withoutRegions_of_values bare.scripts, withoutRegions_of_values bare.styles]

theorem residual_residual_eq_iff (text : Text) :
    residual (residual text) = residual text ↔ IsBare (residual text) := by
  constructor
  next =>
    intro same
    generalize residual text = rest at same
    have trimmed := (trim_isInfix (withoutRegions styleTag (withoutRegions scriptTag rest))).length_le
    have scripts := length_withoutRegions_add_le scriptTag rest
    have styles := length_withoutRegions_add_le styleTag (withoutRegions scriptTag rest)
    rw [← residual, same] at trimmed
    have none : (regions scriptTag rest).values = [] := values_eq_nil_of_length_le (by omega)
    rw [withoutRegions_of_values none] at styles trimmed
    exact ⟨none, values_eq_nil_of_length_le (by omega)⟩
  next =>
    intro bare
    rw [residual_of_isBare bare, residual, trim_trim]

structure JoinsNoRegion (text : Text) : Prop where
  scripts : JoinsNo (opening scriptTag) (gaps scriptTag text)
  styles : ∀ mark ∈ [opening scriptTag, closing scriptTag, opening styleTag],
    JoinsNo mark (gaps styleTag (withoutRegions scriptTag text))

instance (text : Text) : Decidable (JoinsNoRegion text) :=
  decidable_of_iff (JoinsNo (opening scriptTag) (gaps scriptTag text) ∧
      ∀ mark ∈ [opening scriptTag, closing scriptTag, opening styleTag],
        JoinsNo mark (gaps styleTag (withoutRegions scriptTag text)))
    ⟨fun h => ⟨h.1, h.2⟩, fun h => ⟨h.1, h.2⟩⟩

theorem isBare_residual (joins : JoinsNoRegion text) : IsBare (residual text) where
  scripts := by
    refine values_of_isInfix ?_ (trim_isInfix _)
    exact values_withoutRegions_of_none (values_withoutRegions joins.scripts)
      (joins.styles _ (by simp)) (joins.styles _ (by simp))
  styles := values_of_isInfix (values_withoutRegions (joins.styles _ (by simp))) (trim_isInfix _)

/-- What is left of a text holds no region if no tag is put together where regions are taken out.
A second pass leaves it alone just if it holds none. -/
theorem residual_settled (text : Text) :
    (JoinsNoRegion text → IsBare (residual text) ∧ residual (residual text) = residual text) ∧
      (residual (residual text) = residual text ↔ IsBare (residual text)) := by
  have stable := residual_residual_eq_iff text
  refine ⟨?_, stable⟩
  intro joins
  have bare := isBare_residual joins
  exact ⟨bare, stable.2 bare⟩

theorem residual_settled_of_parted_tags :
    let text : Text := "<scr<script>a</script> ipt><sty<style>b</style> le></style></script>"
    JoinsNoRegion text ∧ residual text = ("<scr ipt><sty le></style></script>" : String) ∧
      IsBare (residual text) ∧ residual (residual text) = residual text := by
  intro text
  have joins : JoinsNoRegion text := by decide +kernel
  exact ⟨joins, by decide +kernel, (residual_settled text).1 joins⟩

theorem residual_not_settled :
    let differs (text : Text) : Prop :=
      ¬ IsBare (residual text) ∧ residual (residual text) ≠ residual text
    differs "<scr<script></script>ipt>x</script>" ∧ differs "<sty<style></style>le>x</style>" ∧
      differs "<scr<style></style>ipt>x</script>" ∧ differs "<script></scr<style></style>ipt>" := by
  decide +kernel

end Inlay.Markup
