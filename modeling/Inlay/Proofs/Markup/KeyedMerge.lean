import Inlay.Markup
import Inlay.Proofs.Markup.Regions
import Inlay.Proofs.Text.Trim

set_option autoImplicit false

namespace Inlay.Markup

open Text

-- A region as an entry of a merge: its key, which is its trimmed attributes, and its content.
def Region.entry (region : Region) : Text × Text :=
  (trim region.attrs, region.content)

def entries (tag text : Text) : List (Text × Text) :=
  (regions tag text).values.map Region.entry

def joinEntry : List (Text × Text) → Segment → List (Text × Text)
  | [], segment => [(segment.attrs, segment.content)]
  | (key, inner) :: rest, segment =>
    if key = segment.attrs then (segment.attrs, inner ++ '\n' :: segment.content) :: rest
    else (key, inner) :: joinEntry rest segment

structure Segment.Tidy (tag : Text) (segment : Segment) : Prop where
  attrs_trimmed : trim segment.attrs = segment.attrs
  attrs_open : '>' ∉ segment.attrs
  content_open : ¬ closing tag <:+: segment.content

namespace Segment

instance (tag : Text) (segment : Segment) : Decidable (segment.Tidy tag) :=
  decidable_of_iff (trim segment.attrs = segment.attrs ∧ '>' ∉ segment.attrs ∧
      ¬ closing tag <:+: segment.content)
    ⟨fun h => ⟨h.1, h.2.1, h.2.2⟩, fun h => ⟨h.1, h.2, h.3⟩⟩

theorem tidy_of_region {tag : Text} {region : Region} (wellFormed : region.WellFormed tag) :
    (ofRegion region).Tidy tag where
  attrs_trimmed := trim_trim region.attrs
  attrs_open := fun member => wellFormed.attrs_open ((trim_isInfix region.attrs).subset member)
  content_open := fun inside => wellFormed.content_open (inside.trans (trim_isInfix region.content))

theorem tidy_of_mem_segments {tag text : Text} {segment : Segment}
    (member : segment ∈ segments tag text) : segment.Tidy tag := by
  obtain ⟨region, found, rfl⟩ := List.mem_map.1 member
  obtain ⟨part, inside, rfl⟩ := List.mem_map.1 found
  exact tidy_of_region ((isDecomposed_regions tag text).parts_closed part inside).2

theorem toRegion_attrs_trimmed {attrs : Text} (trimmed : trim attrs = attrs) (content : Text) :
    trim (toRegion ⟨attrs, content⟩).attrs = attrs := by
  by_cases empty : attrs = []
  next => simpa [toRegion, empty] using empty ▸ trimmed
  next => simpa [toRegion, empty, trim_space_cons] using trimmed

theorem toRegion_wellFormed {tag attrs content : Text} (plain : '>' ∉ attrs)
    (closed : ¬ closing tag <:+: content) : (toRegion ⟨attrs, content⟩).WellFormed tag := by
  refine ⟨?_, closed⟩
  by_cases empty : attrs = [] <;> simp [toRegion, empty, plain]

end Segment

theorem not_infix_closing_joined {tag first second : Text} (named : IsTagName tag)
    (first_open : ¬ closing tag <:+: first) (second_open : ¬ closing tag <:+: second) :
    ¬ closing tag <:+: first ++ '\n' :: second := by
  have apart : '\n' ∉ closing tag := by simp [closing, named.not_mem_line]
  intro inside
  rcases infix_or_infix_of_append_cons apart inside with before | behind
  next => exact first_open before
  next => exact second_open behind

theorem not_infix_opening_joined {tag gap : Text} (named : IsTagName tag)
    (plain : ¬ opening tag <:+: gap) : ¬ opening tag <:+: gap ++ ['\n'] := by
  have apart : '\n' ∉ opening tag := by simp [opening, named.not_mem_line]
  intro inside
  rcases infix_or_infix_of_append_cons apart inside with before | behind
  next => exact plain before
  next => simp [opening] at behind

theorem absorb_wellFormed {tag : Text} {segment : Segment} {region : Region}
    (named : IsTagName tag) (tidy : segment.Tidy tag) (wellFormed : region.WellFormed tag) :
    (region.absorb segment).WellFormed tag :=
  Segment.toRegion_wellFormed tidy.attrs_open
    (not_infix_closing_joined named wellFormed.content_open tidy.content_open)

theorem absorbFirst?_parts {tag : Text} {segment : Segment} {parts joined : List (Text × Region)}
    (named : IsTagName tag) (tidy : segment.Tidy tag) (closed : ∀ part ∈ parts, IsPart tag part)
    (found : absorbFirst? segment parts = some joined) : ∀ part ∈ joined, IsPart tag part := by
  induction parts generalizing joined with
  | nil => simp [absorbFirst?] at found
  | cons part parts ih =>
    obtain ⟨gap, region⟩ := part
    obtain ⟨here, later⟩ := List.forall_mem_cons.1 closed
    simp only [absorbFirst?] at found
    split at found
    next =>
      cases found
      exact List.forall_mem_cons.2 ⟨⟨here.1, absorb_wellFormed named tidy here.2⟩, later⟩
    next =>
      obtain ⟨rest, inner, rfl⟩ := Option.map_eq_some_iff.1 found
      exact List.forall_mem_cons.2 ⟨here, ih later inner⟩

def partEntries (parts : List (Text × Region)) : List (Text × Text) :=
  parts.map fun part => part.2.entry

theorem entries_eq (tag text : Text) : entries tag text = partEntries (regions tag text).parts := by
  simp [entries, partEntries, Pieces.values]

@[simp] theorem partEntries_nil : partEntries [] = [] := rfl

@[simp] theorem partEntries_cons (gap : Text) (region : Region) (parts : List (Text × Region)) :
    partEntries ((gap, region) :: parts) =
      (trim region.attrs, region.content) :: partEntries parts :=
  rfl

theorem partEntries_absorbFirst? {tag : Text} {segment : Segment}
    {parts joined : List (Text × Region)} (tidy : segment.Tidy tag)
    (found : absorbFirst? segment parts = some joined) :
    partEntries joined = joinEntry (partEntries parts) segment := by
  induction parts generalizing joined with
  | nil => simp [absorbFirst?] at found
  | cons part parts ih =>
    obtain ⟨gap, region⟩ := part
    simp only [absorbFirst?] at found
    split at found
    next same =>
      cases found
      have key := Segment.toRegion_attrs_trimmed tidy.attrs_trimmed
      simp [joinEntry, Region.absorb, key, same]
      rfl
    next other =>
      obtain ⟨rest, inner, rfl⟩ := Option.map_eq_some_iff.1 found
      simp [joinEntry, other, ih inner]

theorem absorbFirst?_eq_none_iff {segment : Segment} {parts : List (Text × Region)} :
    absorbFirst? segment parts = none ↔ segment.attrs ∉ (partEntries parts).map Prod.fst := by
  induction parts with
  | nil => simp [absorbFirst?]
  | cons part parts ih =>
    obtain ⟨gap, region⟩ := part
    by_cases same : trim region.attrs = segment.attrs
    next => simp [absorbFirst?, same]
    next => simpa [absorbFirst?, same, Ne.symm same] using ih

theorem joinEntry_of_not_mem {joined : List (Text × Text)} {segment : Segment}
    (missing : segment.attrs ∉ joined.map Prod.fst) :
    joinEntry joined segment = joined ++ [(segment.attrs, segment.content)] := by
  induction joined with
  | nil => rfl
  | cons entry joined ih =>
    obtain ⟨key, inner⟩ := entry
    simp only [List.map_cons, List.mem_cons, not_or] at missing
    simp [joinEntry, Ne.symm missing.1, ih missing.2]

-- The part of a text behind its last region opens nothing.
def IsSettled (tag text : Text) : Prop :=
  ¬ opening tag <:+: (regions tag text).tail

variable {tag text : Text} {segment : Segment}

theorem regions_mergeSegment_of_some {joined : List (Text × Region)} (named : IsTagName tag)
    (tidy : segment.Tidy tag)
    (found : absorbFirst? segment (regions tag text).parts = some joined) :
    regions tag (mergeSegment tag text segment) = ⟨joined, (regions tag text).tail⟩ := by
  have decomposed := isDecomposed_regions tag text
  have same : mergeSegment tag text segment =
      Pieces.write (Region.write tag) ⟨joined, (regions tag text).tail⟩ := by
    simp [mergeSegment, found]
  rw [same]
  apply regions_write named
  exact ⟨absorbFirst?_parts named tidy decomposed.parts_closed found, decomposed.tail_plain⟩

theorem regions_mergeSegment_of_none (named : IsTagName tag) (tidy : segment.Tidy tag)
    (settled : IsSettled tag text)
    (missing : absorbFirst? segment (regions tag text).parts = none) :
    regions tag (mergeSegment tag text segment) =
      ⟨(regions tag text).parts ++ [((regions tag text).tail ++ ['\n'], segment.toRegion)], []⟩ := by
  have decomposed := isDecomposed_regions tag text
  have same : mergeSegment tag text segment = Pieces.write (Region.write tag)
      ⟨(regions tag text).parts ++ [((regions tag text).tail ++ ['\n'], segment.toRegion)], []⟩ := by
    have whole := write_regions tag text
    simp only [Pieces.write] at whole
    simp only [mergeSegment, missing, Pieces.write, List.flatMap_append, List.flatMap_cons,
      List.flatMap_nil, List.append_nil, Segment.write]
    conv_lhs => rw [← whole]
    simp
  rw [same]
  apply regions_write named
  refine ⟨?_, by simp [regions]⟩
  intro part member
  rcases List.mem_append.1 member with old | new
  next => exact decomposed.parts_closed part old
  next =>
    cases List.mem_singleton.1 new
    exact ⟨not_infix_opening_joined named settled,
      Segment.toRegion_wellFormed tidy.attrs_open tidy.content_open⟩

def keys (joined : List (Text × Text)) : List Text :=
  joined.map Prod.fst

theorem keys_joinEntry {joined : List (Text × Text)} (known : segment.attrs ∈ keys joined) :
    keys (joinEntry joined segment) = keys joined := by
  induction joined with
  | nil => simp [keys] at known
  | cons entry joined ih =>
    obtain ⟨key, inner⟩ := entry
    by_cases same : key = segment.attrs
    next => simp [joinEntry, keys, same]
    next =>
      have later : segment.attrs ∈ keys joined := by simpa [keys, Ne.symm same] using known
      simpa [joinEntry, keys, same] using ih later

theorem entries_mergeSegment (named : IsTagName tag) (tidy : segment.Tidy tag)
    (ready : IsSettled tag text ∨ segment.attrs ∈ keys (entries tag text)) :
    entries tag (mergeSegment tag text segment) = joinEntry (entries tag text) segment := by
  cases found : absorbFirst? segment (regions tag text).parts with
  | some joined =>
    rw [entries_eq, entries_eq, regions_mergeSegment_of_some named tidy found]
    exact partEntries_absorbFirst? tidy found
  | none =>
    have missing := absorbFirst?_eq_none_iff.1 found
    rw [← entries_eq] at missing
    have settled := ready.resolve_right missing
    have key := Segment.toRegion_attrs_trimmed tidy.attrs_trimmed segment.content
    rw [joinEntry_of_not_mem missing, entries_eq, entries_eq,
      regions_mergeSegment_of_none named tidy settled found]
    simp only [partEntries, List.map_append, List.map_cons, List.map_nil, Region.entry]
    rw [key]
    rfl

theorem isSettled_mergeSegment (named : IsTagName tag) (tidy : segment.Tidy tag)
    (settled : IsSettled tag text) : IsSettled tag (mergeSegment tag text segment) := by
  cases found : absorbFirst? segment (regions tag text).parts with
  | some joined =>
    rw [IsSettled, regions_mergeSegment_of_some named tidy found]
    exact settled
  | none =>
    rw [IsSettled, regions_mergeSegment_of_none named tidy settled found]
    simp [opening]

-- What a merge needs to end in the fold of its segments: that an appended region can be found, or
-- that none is appended. A step leaves the same for those behind it.
theorem ready_mergeSegment {added : List Segment} (named : IsTagName tag) (tidy : segment.Tidy tag)
    (ready : IsSettled tag text ∨
      ∀ other ∈ segment :: added, other.attrs ∈ keys (entries tag text)) :
    IsSettled tag (mergeSegment tag text segment) ∨
      ∀ other ∈ added, other.attrs ∈ keys (entries tag (mergeSegment tag text segment)) := by
  rcases ready with settled | known
  next => exact .inl (isSettled_mergeSegment named tidy settled)
  next =>
    obtain ⟨here, later⟩ := List.forall_mem_cons.1 known
    right
    intro other member
    rw [entries_mergeSegment named tidy (.inr here), keys_joinEntry here]
    exact later other member

theorem entries_foldl_mergeSegment {added : List Segment} (named : IsTagName tag)
    (tidy : ∀ segment ∈ added, segment.Tidy tag)
    (ready : IsSettled tag text ∨ ∀ segment ∈ added, segment.attrs ∈ keys (entries tag text)) :
    entries tag (added.foldl (mergeSegment tag) text) =
      added.foldl joinEntry (entries tag text) := by
  induction added generalizing text with
  | nil => rfl
  | cons segment added ih =>
    obtain ⟨here, later⟩ := List.forall_mem_cons.1 tidy
    have first : entries tag (mergeSegment tag text segment) =
        joinEntry (entries tag text) segment :=
      entries_mergeSegment named here (ready.imp_right (· segment (by simp)))
    rw [List.foldl_cons, List.foldl_cons, ← first]
    exact ih later (ready_mergeSegment named here ready)

/-- A merge goes through its segments one by one: each joins the first region with its key, or a
region of its own follows the text. -/
theorem entries_mergeSegments {added : List Segment}
    (named : tag = scriptTag ∨ tag = styleTag) (tidy : ∀ segment ∈ added, segment.Tidy tag)
    (ready : ¬ opening tag <:+: (regions tag text).tail ∨
      ∀ segment ∈ added, segment.attrs ∈ keys (entries tag text)) :
    entries tag (mergeSegments tag text added) = added.foldl joinEntry (entries tag text) ∧
      ∀ source, ∀ segment ∈ segments tag source, segment.Tidy tag := by
  have name := isTagName_of_eq named
  exact ⟨entries_foldl_mergeSegment name tidy ready, fun _ _ => Segment.tidy_of_mem_segments⟩

theorem entries_mergeSegments_join_and_append :
    let text : Text := "<script lang>a</script><i/>"
    let added : List Segment := [⟨"lang", "</scrip"⟩, ⟨[], "x"⟩, ⟨[], "y"⟩]
    let merged : List (Text × Text) := [("lang", "a\n</scrip"), ([], "x\ny")]
    (∀ segment ∈ added, segment.Tidy scriptTag) ∧
      ¬ opening scriptTag <:+: (regions scriptTag text).tail ∧
      entries scriptTag (mergeSegments scriptTag text added) = merged := by
  intro text added merged
  have tidy : ∀ segment ∈ added, segment.Tidy scriptTag := by decide +kernel
  have settled : ¬ opening scriptTag <:+: (regions scriptTag text).tail := by decide +kernel
  have folded : added.foldl joinEntry (entries scriptTag text) = merged := by decide +kernel
  exact ⟨tidy, settled, (entries_mergeSegments (.inl rfl) tidy (.inl settled)).1.trans folded⟩

end Inlay.Markup
