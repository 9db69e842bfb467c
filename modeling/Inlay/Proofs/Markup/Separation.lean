import Inlay.Markup
import Inlay.Proofs.Markup.Regions

set_option autoImplicit false

namespace Inlay.Markup

open Text

-- No end of a text begins an opening of the tag, so no region begins in it and ends behind it.
def OpensNothing (tag text : Text) : Prop :=
  ∀ ending ∈ text.tails, ending ≠ [] → ¬ opening tag <+: ending ∧ ¬ ending <+: opening tag

-- Every region of the tag that begins in a text ends in it, whatever follows.
def IsShut (tag text : Text) : Prop :=
  OpensNothing tag (regions tag text).tail

instance (tag text : Text) : Decidable (OpensNothing tag text) :=
  inferInstanceAs (Decidable (∀ ending ∈ text.tails, _))

instance (tag text : Text) : Decidable (IsShut tag text) :=
  inferInstanceAs (Decidable (OpensNothing tag _))

def gaps (tag text : Text) : List Text :=
  (regions tag text).parts.map (·.1) ++ [(regions tag text).tail]

variable {tag other text rest : Text}

theorem values_append_of_opensNothing (nothing : OpensNothing tag text) :
    (regions tag (text ++ rest)).values = (regions tag rest).values := by
  induction text with
  | nil => rfl
  | cons c text ih =>
    have later : OpensNothing tag text := fun ending inside => nothing ending (by simp [inside])
    have apart := nothing (c :: text) (by simp) (by simp)
    have missing : Region.read? tag (c :: (text ++ rest)) = none := by
      apply read?_eq_none
      intro front
      have whole : c :: text <+: c :: (text ++ rest) := by simp
      rcases List.prefix_or_prefix_of_prefix front whole with short | long
      next => exact apart.1 short
      next => exact apart.2 long
    rw [List.cons_append, regions_cons missing, Pieces.values_skip, ih later]

theorem values_write_append {parts : List (Text × Region)} {tail : Text} (named : IsTagName tag)
    (closed : ∀ part ∈ parts, IsPart tag part) (nothing : OpensNothing tag tail) :
    (regions tag (Pieces.write (Region.write tag) ⟨parts, tail⟩ ++ rest)).values =
      parts.map (·.2) ++ (regions tag rest).values := by
  induction parts with
  | nil => simpa using values_append_of_opensNothing nothing
  | cons part parts ih =>
    obtain ⟨gap, region⟩ := part
    obtain ⟨⟨plain, wellFormed⟩, later⟩ := List.forall_mem_cons.1 closed
    rw [Pieces.write_cons, List.append_assoc, List.append_assoc,
      regions_append_write named plain wellFormed]
    exact congrArg (region :: ·) (ih later)

theorem values_append_of_isShut (named : IsTagName tag) (shut : IsShut tag text) :
    (regions tag (text ++ rest)).values =
      (regions tag text).values ++ (regions tag rest).values := by
  have whole := write_regions tag text
  conv_lhs => rw [← whole]
  exact values_write_append named (isDecomposed_regions tag text).parts_closed shut

-- A region ends in a bracket, which no opening has.
theorem opensNothing_write {region : Region} (named : IsTagName tag)
    (plain : ¬ opening tag <:+: region.write other) : OpensNothing tag (region.write other) := by
  intro ending inside nonempty
  have suffix := (List.mem_tails _ _).1 inside
  refine ⟨fun front => plain (front.isInfix.trans suffix.isInfix), ?_⟩
  intro front
  have bracket : ['>'] <:+ region.write other :=
    ⟨opening other ++ region.attrs ++ '>' :: region.content ++ '<' :: '/' :: other,
      by simp [Region.write, closing]⟩
  have last : ['>'] <:+ ending :=
    List.suffix_of_suffix_length_le bracket suffix (List.length_pos_iff.2 nonempty)
  have member : '>' ∈ opening tag := front.subset (last.subset (by simp))
  simp [opening, named.not_mem_close] at member

structure Separates (tag other text : Text) : Prop where
  shut : ∀ part ∈ (regions tag text).parts, IsShut other part.1
  plain : ∀ part ∈ (regions tag text).parts, ¬ opening other <:+: part.2.write tag

instance (tag other text : Text) : Decidable (Separates tag other text) :=
  decidable_of_iff ((∀ part ∈ (regions tag text).parts, IsShut other part.1) ∧
      ∀ part ∈ (regions tag text).parts, ¬ opening other <:+: part.2.write tag)
    ⟨fun h => ⟨h.1, h.2⟩, fun h => ⟨h.1, h.2⟩⟩

-- Whatever stands in the places of the regions, as long as it opens nothing.
theorem values_write_of_shut {parts : List (Text × Region)} {tail : Text} {render : Region → Text}
    (named : IsTagName other) (shut : ∀ part ∈ parts, IsShut other part.1)
    (plain : ∀ part ∈ parts, OpensNothing other (render part.2)) :
    (regions other (Pieces.write render ⟨parts, tail⟩)).values =
      (parts.map (·.1) ++ [tail]).flatMap fun gap => (regions other gap).values := by
  induction parts with
  | nil => simp
  | cons part parts ih =>
    obtain ⟨gap, region⟩ := part
    obtain ⟨here, later⟩ := List.forall_mem_cons.1 shut
    obtain ⟨nothing, others⟩ := List.forall_mem_cons.1 plain
    rw [Pieces.write_cons, values_append_of_isShut named here, values_append_of_opensNothing nothing,
      ih later others]
    rfl

theorem values_of_separates (named : IsTagName other) (separate : Separates tag other text) :
    (regions other text).values = (gaps tag text).flatMap fun gap => (regions other gap).values := by
  have whole := write_regions tag text
  conv_lhs => rw [← whole]
  apply values_write_of_shut named separate.shut
  exact fun part member => opensNothing_write named (separate.plain part member)

theorem values_withoutRegions_of_separates (named : IsTagName other)
    (separate : Separates tag other text) :
    (regions other (withoutRegions tag text)).values =
      (gaps tag text).flatMap fun gap => (regions other gap).values :=
  values_write_of_shut named separate.shut fun _ _ => by simp [OpensNothing]

/-- When the scripts of a text are separate from its styles, the styles that are reported are those
that are taken out behind the scripts. All of them lie in the gaps between the scripts. -/
theorem segments_withoutRegions (text : Text) (separate : Separates scriptTag styleTag text) :
    segments styleTag text = segments styleTag (withoutRegions scriptTag text) ∧
      segments styleTag text = (gaps scriptTag text).flatMap (segments styleTag) := by
  have whole := values_of_separates isTagName_style separate
  have bare := values_withoutRegions_of_separates isTagName_style separate
  refine ⟨by rw [segments, segments, whole, bare], ?_⟩
  rw [segments, whole, List.map_flatMap]
  rfl

theorem segments_withoutRegions_of_component :
    let text : Text := "<style>p{}</style><i><script>let s = '</style>';</script></i><style>b{}</style>"
    Separates scriptTag styleTag text ∧ segments styleTag text = [⟨[], "p{}"⟩, ⟨[], "b{}"⟩] ∧
      segments styleTag text = segments styleTag (withoutRegions scriptTag text) := by
  intro text
  have separate : Separates scriptTag styleTag text := by decide +kernel
  exact ⟨separate, by decide +kernel, (segments_withoutRegions text separate).1⟩

theorem segments_withoutRegions_ne :
    let differs (text : Text) : Prop :=
      segments styleTag text ≠ segments styleTag (withoutRegions scriptTag text)
    differs "<script>let s = '<style>p{}</style>';</script><b/>" ∧
      differs "<style>p{}<script>let s;</script></style>" ∧
      differs "<sty<script></script>le>p{}</style>" := by
  decide +kernel

end Inlay.Markup
