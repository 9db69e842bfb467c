import Inlay.Proofs.Markup.KeyedMerge
import Inlay.Proofs.Markup.Remainder

set_option autoImplicit false

namespace Inlay.Text

variable {marks : List Text} {text back : Text}

-- What follows a text brings no mark when no mark has a character of it.
theorem InOrder.of_foreign (nonempty : ∀ mark ∈ marks, mark ≠ [])
    (foreign : ∀ mark ∈ marks, ∀ c ∈ back, c ∉ mark) (order : InOrder marks (text ++ back)) :
    InOrder marks text := by
  have kept : ∀ mark ∈ marks, ∀ ending, ending <:+ text → ending ≠ [] →
      mark <+: ending ++ back → mark <+: ending := by
    intro mark member ending _ _ begun
    cases back with
    | nil => simpa using begun
    | cons c more =>
      exact prefix_of_prefix_append_cons ending (foreign mark member c List.mem_cons_self) begun
  obtain ⟨first, second, rfl, here, there⟩ := order.split kept
  cases second with
  | nil => simpa using here
  | cons mark second =>
    have listed : mark ∈ first ++ mark :: second := by simp
    have inside := there.isInfix_of_mem List.mem_cons_self
    obtain ⟨c, rest, rfl⟩ := List.exists_cons_of_ne_nil (nonempty mark listed)
    have member : c ∈ back := inside.subset List.mem_cons_self
    exact absurd List.mem_cons_self (foreign (c :: rest) listed c member)

end Inlay.Text

namespace Inlay.Markup

open Text

variable {tag text : Text} {segment : Segment} {added : List Segment}

theorem values_append_lines (named : IsTagName tag) (none : (regions tag text).values = [])
    (n : Nat) : (regions tag (text ++ List.replicate n '\n')).values = [] := by
  rw [values_eq_nil_iff] at none ⊢
  intro order
  refine none (order.of_foreign ?_ ?_)
  next => simp [regionMarks, opening, closing]
  next =>
    intro mark member c line
    obtain rfl := List.eq_of_mem_replicate line
    simp only [regionMarks, List.mem_cons, List.not_mem_nil, or_false] at member
    rcases member with rfl | rfl | rfl
    next => simp [opening, named.not_mem_line]
    next => decide
    next => simp [closing, named.not_mem_line]

theorem withoutRegions_append_lines (named : IsTagName tag) (text : Text) (n : Nat) :
    withoutRegions tag (text ++ List.replicate n '\n') =
      withoutRegions tag text ++ List.replicate n '\n' := by
  have decomposed := isDecomposed_regions tag text
  have whole := write_regions tag text
  rw [withoutRegions, withoutRegions]
  generalize regions tag text = pieces at decomposed whole
  obtain ⟨parts, tail⟩ := pieces
  have longer : text ++ List.replicate n '\n' =
      Pieces.write (Region.write tag) ⟨parts, tail ++ List.replicate n '\n'⟩ := by
    simp [← whole, Pieces.write]
  have plain : (regions tag (tail ++ List.replicate n '\n')).values = [] := by
    apply values_append_lines named
    rw [decomposed.tail_plain]
    rfl
  have behind : IsDecomposed tag ⟨parts, tail ++ List.replicate n '\n'⟩ :=
    ⟨decomposed.parts_closed, regions_of_values plain⟩
  rw [longer, regions_write named behind]
  simp [Pieces.write]

theorem map_fst_absorbFirst? {parts joined : List (Text × Region)}
    (found : absorbFirst? segment parts = some joined) :
    joined.map Prod.fst = parts.map Prod.fst := by
  induction parts generalizing joined with
  | nil => cases found
  | cons part parts ih =>
    obtain ⟨gap, region⟩ := part
    simp only [absorbFirst?] at found
    split at found
    next =>
      cases found
      rfl
    next =>
      obtain ⟨rest, inner, rfl⟩ := Option.map_eq_some_iff.1 found
      simp [ih inner]

-- Only line ends are added to the gaps by a merge, and none if the segment joins a region.
theorem exists_withoutRegions_mergeSegment (named : IsTagName tag) (tidy : segment.Tidy tag)
    (ready : IsSettled tag text ∨ segment.attrs ∈ keys (entries tag text)) :
    ∃ n, withoutRegions tag (mergeSegment tag text segment) =
      withoutRegions tag text ++ List.replicate n '\n' := by
  simp only [← flatten_gaps, gaps]
  cases found : absorbFirst? segment (regions tag text).parts with
  | some joined =>
    refine ⟨0, ?_⟩
    rw [regions_mergeSegment_of_some named tidy found, map_fst_absorbFirst? found]
    simp
  | none =>
    have missing := absorbFirst?_eq_none_iff.1 found
    rw [← entries_eq] at missing
    refine ⟨1, ?_⟩
    rw [regions_mergeSegment_of_none named tidy (ready.resolve_right missing) found]
    simp

theorem exists_withoutRegions_mergeSegments (named : IsTagName tag)
    (tidy : ∀ segment ∈ added, segment.Tidy tag)
    (ready : IsSettled tag text ∨ ∀ segment ∈ added, segment.attrs ∈ keys (entries tag text)) :
    ∃ n, withoutRegions tag (mergeSegments tag text added) =
      withoutRegions tag text ++ List.replicate n '\n' := by
  unfold mergeSegments
  induction added generalizing text with
  | nil => exact ⟨0, by simp⟩
  | cons segment added ih =>
    obtain ⟨here, later⟩ := List.forall_mem_cons.1 tidy
    have first := ready.imp_right (· segment List.mem_cons_self)
    obtain ⟨n, once⟩ := exists_withoutRegions_mergeSegment named here first
    obtain ⟨m, onward⟩ := ih later (ready_mergeSegment named here ready)
    refine ⟨n + m, ?_⟩
    rw [List.foldl_cons, onward, once, List.append_assoc, List.replicate_append_replicate]

/-- Scripts that are merged into a text leave the text without its regions as it was. -/
theorem residual_mergeScripts (tidy : ∀ segment ∈ added, segment.Tidy scriptTag)
    (ready : ¬ opening scriptTag <:+: (regions scriptTag text).tail ∨
      ∀ segment ∈ added, segment.attrs ∈ keys (entries scriptTag text)) :
    residual (mergeScripts text added) = residual text := by
  obtain ⟨n, scripts⟩ := exists_withoutRegions_mergeSegments isTagName_script tidy ready
  have padded : ∀ c ∈ List.replicate n '\n', isPadding c = true := by
    intro c line
    rw [List.eq_of_mem_replicate line]
    decide
  rw [residual, residual, mergeScripts, scripts, withoutRegions_append_lines isTagName_style,
    trim_append_of_isPadding padded]

theorem residual_mergeScripts_of_open_style :
    let settled : Text := "<style>p{}</style><i/><script lang>a</script><b/><style"
    let unsettled : Text := "<i/><script lang>a</script><script>"
    let added : List Segment := [⟨"lang", "</style>"⟩, ⟨[], "x"⟩, ⟨"d", []⟩]
    let known : List Segment := [⟨"lang", "<script>"⟩]
    (∀ segment ∈ added ++ known, segment.Tidy scriptTag) ∧
      (¬ opening scriptTag <:+: (regions scriptTag settled).tail) ∧
      (∀ segment ∈ known, segment.attrs ∈ keys (entries scriptTag unsettled)) ∧
      residual (mergeScripts settled added) = ("<i/><b/><style" : String) ∧
      residual (mergeScripts unsettled known) = ("<i/><script>" : String) := by
  intro settled unsettled added known
  have tidy : ∀ segment ∈ added ++ known, segment.Tidy scriptTag := by decide +kernel
  obtain ⟨fresh, joins⟩ := List.forall_mem_append.1 tidy
  have plain : ¬ opening scriptTag <:+: (regions scriptTag settled).tail := by decide +kernel
  have listed : ∀ segment ∈ known, segment.attrs ∈ keys (entries scriptTag unsettled) := by
    decide +kernel
  refine ⟨tidy, plain, listed, ?_, ?_⟩
  next => exact (residual_mergeScripts fresh (.inl plain)).trans (by decide +kernel)
  next => exact (residual_mergeScripts joins (.inr listed)).trans (by decide +kernel)

end Inlay.Markup
