import Inlay.Value.Basic
import Mathlib.Data.List.Infix

set_option autoImplicit false

namespace Inlay

open Text

namespace Scalar

def IsText (key : Scalar) : Prop :=
  ∃ name, key = text name

theorem same_self (key : Scalar) : key.same key = true := by
  cases key with
  | float value =>
    cases value with
    | nan => exact beq_self_eq_true _
    | infinite => exact beq_self_eq_true _
    | finite negative mantissa exponent =>
      have each : (mantissa == mantissa && exponent == exponent &&
          (negative == negative || mantissa == 0)) = true := by simp
      exact each
  | moment value => exact Bool.and_eq_true_iff.2 ⟨beq_self_eq_true _, beq_self_eq_true _⟩
  | _ => simp [same, whole?]

theorem same_text_iff {key : Scalar} {name : Text} : key.same (text name) = true ↔ key = text name := by
  cases key <;> simp [same, whole?]

theorem text_same_iff {key : Scalar} {name : Text} : (text name).same key = true ↔ key = text name := by
  cases key with
  | text value => simpa [same, whole?] using eq_comm
  | _ => simp [same, whole?]

theorem IsText.eq_of_same {first second : Scalar} (isText : first.IsText)
    (same : first.same second = true) : first = second := by
  obtain ⟨name, rfl⟩ := isText
  exact (text_same_iff.1 same).symm

theorem IsText.eq_of_same' {first second : Scalar} (isText : second.IsText)
    (same : first.same second = true) : first = second := by
  obtain ⟨name, rfl⟩ := isText
  exact same_text_iff.1 same

end Scalar

namespace Mapping

def Distinct (mapping : Mapping) : Prop :=
  mapping.Pairwise fun first second => first.1.same second.1 = false

def Agree (lower upper : Mapping) : Prop :=
  ∀ first ∈ lower, ∀ second ∈ upper, first.1.same second.1 = true → first.1 = second.1

variable {mapping lower upper : Mapping} {key other : Scalar} {value old : Value}
variable {entry : Scalar × Value}

theorem mem_of_get? (found : mapping.get? key = some value) :
    ∃ other, (other, value) ∈ mapping ∧ other.same key = true := by
  obtain ⟨entry, first, rfl⟩ := Option.map_eq_some_iff.1 found
  exact ⟨entry.1, List.mem_of_find?_eq_some first, by simpa using List.find?_some first⟩

theorem Distinct.get?_of_mem (distinct : mapping.Distinct) (member : (key, value) ∈ mapping) :
    mapping.get? key = some value := by
  obtain ⟨early, late, rfl⟩ := List.append_of_mem member
  have apart := (List.pairwise_append.1 distinct).2.2
  unfold get?
  rw [List.find?_append, List.find?_eq_none.2, Option.none_or]
  next => simp [key.same_self]
  intro entry among
  simpa using apart entry among _ List.mem_cons_self

theorem Distinct.eq_of_mem (distinct : mapping.Distinct) (member : (key, value) ∈ mapping)
    (member' : (key, old) ∈ mapping) : value = old :=
  Option.some.inj ((distinct.get?_of_mem member).symm.trans (distinct.get?_of_mem member'))

theorem key_of_mem_insert (member : entry ∈ mapping.insert key value) :
    (entry.2 = value ∧ (entry.1 = key ∨ ∃ old, (entry.1, old) ∈ mapping)) ∨ entry ∈ mapping := by
  induction mapping with
  | nil => simp_all [insert]
  | cons first mapping ih =>
    obtain ⟨other, old⟩ := first
    unfold insert at member
    split at member
    next =>
      rcases List.mem_cons.1 member with rfl | later
      next => exact .inl ⟨rfl, .inr ⟨old, List.mem_cons_self⟩⟩
      next => exact .inr (List.mem_cons_of_mem _ later)
    next =>
      rcases List.mem_cons.1 member with rfl | later
      next => exact .inr List.mem_cons_self
      next =>
        refine (ih later).imp ?_ (List.mem_cons_of_mem _)
        exact fun ⟨same, named⟩ =>
          ⟨same, named.imp_right fun ⟨old, among⟩ => ⟨old, List.mem_cons_of_mem _ among⟩⟩

theorem Distinct.insert (distinct : mapping.Distinct) (key : Scalar) (value : Value) :
    (mapping.insert key value).Distinct := by
  induction mapping with
  | nil => exact List.pairwise_singleton _ _
  | cons first mapping ih =>
    obtain ⟨other, old⟩ := first
    obtain ⟨apart, rest⟩ := List.pairwise_cons.1 distinct
    unfold Mapping.insert
    split
    next => exact List.pairwise_cons.2 ⟨apart, rest⟩
    next new =>
      refine List.pairwise_cons.2 ⟨fun entry member => ?_, ih rest⟩
      rcases key_of_mem_insert member with ⟨-, same | ⟨old, among⟩⟩ | among
      next => simpa [same] using new
      next => exact apart (entry.1, old) among
      next => exact apart entry among

theorem mem_insert_iff (distinct : mapping.Distinct)
    (spelled : ∀ entry ∈ mapping, entry.1.same key = true → entry.1 = key) :
    entry ∈ mapping.insert key value ↔
      entry = (key, value) ∨ entry ∈ mapping ∧ entry.1.same key = false := by
  induction mapping with
  | nil => simp [insert]
  | cons first mapping ih =>
    obtain ⟨other, old⟩ := first
    obtain ⟨apart, rest⟩ := List.pairwise_cons.1 distinct
    unfold insert
    split
    next there =>
      obtain rfl : other = key := spelled _ List.mem_cons_self there
      have others : ∀ entry ∈ mapping, entry.1.same other = false := by
        intro entry member
        by_contra same
        rw [Bool.not_eq_false] at same
        have equal := spelled entry (List.mem_cons_of_mem _ member) same
        have different := apart entry member
        rw [equal, there] at different
        cases different
      rw [List.mem_cons, List.mem_cons]
      refine or_congr_right ⟨fun member => ⟨.inr member, others entry member⟩, ?_⟩
      rintro ⟨rfl | member, different⟩
      next => cases there.symm.trans different
      next => exact member
    next new =>
      rw [List.mem_cons, ih rest fun entry member => spelled entry (List.mem_cons_of_mem _ member),
        List.mem_cons]
      constructor
      next =>
        rintro (rfl | same | ⟨member, different⟩)
        next => exact .inr ⟨.inl rfl, by simpa using new⟩
        next => exact .inl same
        next => exact .inr ⟨.inr member, different⟩
      next =>
        rintro (same | ⟨rfl | member, different⟩)
        next => exact .inr (.inl same)
        next => exact .inl rfl
        next => exact .inr (.inr ⟨member, different⟩)

theorem mem_insert_text_iff {name : Text} (distinct : mapping.Distinct) :
    entry ∈ mapping.insert (.text name) value ↔
      entry = (.text name, value) ∨ entry ∈ mapping ∧ entry.1 ≠ .text name := by
  rw [mem_insert_iff distinct fun _ _ same => Scalar.same_text_iff.1 same, ← Bool.not_eq_true,
    Scalar.same_text_iff]

theorem get?_insert_of_other (spelled : ∀ entry ∈ mapping, entry.1.same key = true → entry.1 = key)
    (apart : key.same other = false) : (mapping.insert key value).get? other = mapping.get? other := by
  induction mapping with
  | nil => simp [insert, get?, apart]
  | cons first mapping ih =>
    obtain ⟨name, old⟩ := first
    have later := ih fun entry member => spelled entry (List.mem_cons_of_mem _ member)
    unfold insert
    split
    next there =>
      obtain rfl : name = key := spelled _ List.mem_cons_self there
      simp [get?, apart]
    next =>
      unfold get? at later ⊢
      cases found : name.same other <;> simp [found, later]

theorem insert_of_get? (found : mapping.get? key = some value) : mapping.insert key value = mapping := by
  induction mapping with
  | nil => cases found
  | cons first mapping ih =>
    obtain ⟨other, old⟩ := first
    unfold insert
    unfold get? at found ih
    split
    next same => simpa [same, eq_comm] using found
    next different => rw [ih (by simpa [different] using found)]

def joined (lower : Mapping) (key : Scalar) (value : Value) : Value :=
  match lower.get? key with
  | some old => old.over value
  | none => value

theorem over_cons (lower : Mapping) (key : Scalar) (value : Value) (upper : Mapping) :
    lower.over ((key, value) :: upper) =
      (lower.insert key (lower.joined key value)).over upper := by
  rw [Mapping.over]
  rfl

theorem Distinct.over (distinct : lower.Distinct) (upper : Mapping) :
    (lower.over upper).Distinct := by
  induction upper generalizing lower with
  | nil => rwa [Mapping.over]
  | cons entry upper ih =>
    rw [over_cons]
    exact ih (distinct.insert _ _)

theorem mem_over_iff (distinct : lower.Distinct) (distinct' : upper.Distinct)
    (agree : lower.Agree upper) : entry ∈ lower.over upper ↔
      (∃ value, (entry.1, value) ∈ upper ∧ entry.2 = lower.joined entry.1 value) ∨
        entry ∈ lower ∧ ∀ other ∈ upper, entry.1.same other.1 = false := by
  induction upper generalizing lower with
  | nil => simp [Mapping.over]
  | cons first upper ih =>
    obtain ⟨key, value⟩ := first
    obtain ⟨apart, rest⟩ := List.pairwise_cons.1 distinct'
    have spelled (entry : Scalar × Value) (member : entry ∈ lower) (same : entry.1.same key = true) :
        entry.1 = key := agree entry member _ List.mem_cons_self same
    have inserted (entry : Scalar × Value) :
        entry ∈ lower.insert key (lower.joined key value) ↔
          entry = (key, lower.joined key value) ∨ entry ∈ lower ∧ entry.1.same key = false :=
      mem_insert_iff distinct spelled
    have agree' : (lower.insert key (lower.joined key value)).Agree upper := by
      intro entry member other among same
      rcases (inserted entry).1 member with rfl | ⟨member, -⟩
      next => cases (apart other among).symm.trans same
      next => exact agree entry member other (List.mem_cons_of_mem _ among) same
    -- What is joined under a later key does not hang on this one.
    have still (other : Scalar) (value' : Value) (among : (other, value') ∈ upper) :
        (lower.insert key (lower.joined key value)).joined other value' =
          lower.joined other value' := by
      have apart : key.same other = false := apart _ among
      unfold joined
      rw [get?_insert_of_other spelled apart]
    rw [over_cons, ih (distinct.insert _ _) rest agree', inserted]
    constructor
    next =>
      rintro (⟨value', among, same⟩ | ⟨rfl | ⟨member, different⟩, others⟩)
      next =>
        rw [still _ _ among] at same
        exact .inl ⟨value', List.mem_cons_of_mem _ among, same⟩
      next => exact .inl ⟨value, List.mem_cons_self, rfl⟩
      next => exact .inr ⟨member, List.forall_mem_cons.2 ⟨different, others⟩⟩
    next =>
      rintro (⟨value', among, same⟩ | ⟨member, others⟩)
      next =>
        rcases List.mem_cons.1 among with first | among
        next =>
          obtain ⟨rfl, rfl⟩ := Prod.mk.inj first
          exact .inr ⟨.inl (Prod.ext rfl same), apart⟩
        next => exact .inl ⟨value', among, by rw [still _ _ among, same]⟩
      next =>
        obtain ⟨different, others⟩ := List.forall_mem_cons.1 others
        exact .inr ⟨.inr ⟨member, different⟩, others⟩

theorem mem_over_cases (distinct : lower.Distinct) (distinct' : upper.Distinct)
    (agree : lower.Agree upper) (member : (key, value) ∈ lower.over upper) :
    (∃ old new, (key, old) ∈ lower ∧ (key, new) ∈ upper ∧ value = old.over new) ∨
      (key, value) ∈ upper ∨ (key, value) ∈ lower ∧ ∀ new, (key, new) ∉ upper := by
  rcases (mem_over_iff distinct distinct' agree).1 member with ⟨new, among, same⟩ | ⟨among, others⟩
  next =>
    dsimp only at among same
    unfold joined at same
    split at same
    next old there =>
      obtain ⟨other, among', equal⟩ := mem_of_get? there
      obtain rfl : other = key := agree _ among' _ among equal
      exact .inl ⟨old, new, among', among, same⟩
    next => exact .inr (.inl (same ▸ among))
  next =>
    refine .inr (.inr ⟨among, fun new among' => ?_⟩)
    cases (others _ among').symm.trans key.same_self

end Mapping

namespace Value

def At (value : Value) : List Scalar → Value → Prop
  | [], found => value = found
  | key :: path, found =>
    match value with
    | map entries => ∃ inner, (key, inner) ∈ entries ∧ inner.At path found
    | _ => False

inductive Keyed (named : Scalar → Prop) : Value → Prop
  | leaf {value : Value} (isLeaf : value.isMap = false) : Keyed named value
  | map {entries : Mapping} (distinct : entries.Distinct) (keys : ∀ entry ∈ entries, named entry.1)
      (each : ∀ entry ∈ entries, Keyed named entry.2) : Keyed named (.map entries)

structure Silent (value : Value) (path : List Scalar) : Prop where
  missing : ∀ found, ¬ value.At path found
  open_way : ∀ front, front <+: path → front ≠ path → ∀ found, value.At front found →
    found.isMap = true

variable {value lower upper found other : Value} {entries : Mapping} {path : List Scalar}
variable {key : Scalar} {named named' : Scalar → Prop}

@[simp] theorem at_nil_iff : value.At [] found ↔ value = found := Iff.rfl

@[simp] theorem at_cons_iff : (map entries).At (key :: path) found ↔
    ∃ inner, (key, inner) ∈ entries ∧ inner.At path found := Iff.rfl

theorem exists_map_of_at (stands : value.At (key :: path) found) : ∃ entries, value = map entries := by
  cases value with
  | map entries => exact ⟨entries, rfl⟩
  | _ => cases stands

theorem not_at_of_leaf (isLeaf : value.isMap = false) : ¬ value.At (key :: path) found := by
  intro stands
  obtain ⟨entries, rfl⟩ := exists_map_of_at stands
  cases isLeaf

theorem ne_nil_of_leaf (stands : (map entries).At path found) (isLeaf : found.isMap = false) :
    path ≠ [] := by
  rintro rfl
  rw [← at_nil_iff.1 stands] at isLeaf
  cases isLeaf

theorem Keyed.of_map (keyed : (Value.map entries).Keyed named) :
    entries.Distinct ∧ (∀ entry ∈ entries, named entry.1) ∧ ∀ entry ∈ entries, entry.2.Keyed named := by
  cases keyed with
  | leaf isLeaf => cases isLeaf
  | map distinct keys each => exact ⟨distinct, keys, each⟩

theorem keyed_empty : (Value.map []).Keyed named :=
  .map .nil nofun nofun

theorem Keyed.mono (keyed : value.Keyed named) (weaker : ∀ key, named key → named' key) :
    value.Keyed named' := by
  induction keyed with
  | leaf isLeaf => exact .leaf isLeaf
  | map distinct keys each ih =>
    exact .map distinct (fun entry member => weaker _ (keys entry member)) ih

theorem Keyed.at_unique (keyed : value.Keyed named) (stands : value.At path found)
    (stands' : value.At path other) : found = other := by
  induction path generalizing value with
  | nil => exact stands.symm.trans stands'
  | cons key path ih =>
    obtain ⟨entries, rfl⟩ := exists_map_of_at stands
    obtain ⟨distinct, -, each⟩ := keyed.of_map
    obtain ⟨inner, member, stands⟩ := stands
    obtain ⟨inner', member', stands'⟩ := stands'
    cases distinct.eq_of_mem member member'
    exact ih (each _ member) stands stands'

theorem at_append_iff {front : List Scalar} : value.At (front ++ path) found ↔
    ∃ middle, value.At front middle ∧ middle.At path found := by
  induction front generalizing value with
  | nil => simp
  | cons key front ih =>
    cases value with
    | map entries =>
      simp only [List.cons_append, at_cons_iff, ih]
      constructor
      next =>
        rintro ⟨inner, member, middle, stands, stands'⟩
        exact ⟨middle, ⟨inner, member, stands⟩, stands'⟩
      next =>
        rintro ⟨middle, ⟨inner, member, stands⟩, stands'⟩
        exact ⟨inner, member, middle, stands, stands'⟩
    | _ => exact iff_of_false id fun ⟨_, stands, _⟩ => stands

theorem exists_at_of_prefix {front : List Scalar} (stands : value.At path found)
    (part : front <+: path) : ∃ other, value.At front other := by
  obtain ⟨rest, rfl⟩ := part
  obtain ⟨middle, stands, -⟩ := at_append_iff.1 stands
  exact ⟨middle, stands⟩

theorem Keyed.eq_of_prefix {front : List Scalar} (keyed : value.Keyed named)
    (stands : value.At front found) (isLeaf : found.isMap = false) (stands' : value.At path other)
    (part : front <+: path) : front = path := by
  obtain ⟨rest, rfl⟩ := part
  obtain ⟨middle, before, behind⟩ := at_append_iff.1 stands'
  obtain rfl := keyed.at_unique before stands
  cases rest with
  | nil => exact (List.append_nil front).symm
  | cons key rest => exact absurd behind (not_at_of_leaf isLeaf)

section Silence

theorem not_silent_nil : ¬ value.Silent [] :=
  fun silent => silent.missing value rfl

theorem Silent.exists_map (silent : value.Silent (key :: path)) : ∃ entries, value = map entries := by
  have isMap := silent.open_way [] List.nil_prefix (by simp) value rfl
  cases value with
  | map entries => exact ⟨entries, rfl⟩
  | _ => cases isMap

theorem silent_cons_iff : (map entries).Silent (key :: path) ↔
    ∀ inner, (key, inner) ∈ entries → inner.Silent path := by
  constructor
  next =>
    intro silent inner member
    refine ⟨fun found stands => silent.missing found ⟨inner, member, stands⟩, ?_⟩
    intro front part proper found stands
    exact silent.open_way (key :: front) ((List.prefix_cons_inj key).2 part) (by simpa using proper)
      found ⟨inner, member, stands⟩
  next =>
    intro each
    refine ⟨fun found ⟨inner, member, stands⟩ => (each inner member).missing found stands, ?_⟩
    intro front part proper found stands
    cases front with
    | nil => rw [← at_nil_iff.1 stands]; rfl
    | cons first front =>
      obtain ⟨rfl, part'⟩ := List.cons_prefix_cons.1 part
      obtain ⟨inner, member, stands⟩ := stands
      exact (each inner member).open_way front part' (by simpa using proper) found stands

end Silence

section Setting

variable {name : Text}

theorem not_at_empty : ¬ (Value.map []).At (key :: path) found :=
  fun ⟨_, member, _⟩ => List.not_mem_nil member

theorem at_text_iff (distinct : entries.Distinct) :
    (Value.map entries).At (.text name :: path) found ↔
      ∃ inner, Mapping.get? entries (.text name) = some inner ∧ inner.At path found := by
  constructor
  next => exact fun ⟨inner, member, stands⟩ => ⟨inner, distinct.get?_of_mem member, stands⟩
  next =>
    rintro ⟨inner, there, stands⟩
    obtain ⟨other, member, same⟩ := Mapping.mem_of_get? there
    rw [Scalar.same_text_iff.1 same] at member
    exact ⟨inner, member, stands⟩

theorem at_insert_iff (distinct : entries.Distinct) :
    (Value.map (Mapping.insert entries (.text name) value)).At (key :: path) found ↔
      key = .text name ∧ value.At path found ∨
        key ≠ .text name ∧ (Value.map entries).At (key :: path) found := by
  constructor
  next =>
    rintro ⟨inner, member, stands⟩
    rcases (Mapping.mem_insert_text_iff distinct).1 member with same | ⟨among, different⟩
    next =>
      obtain ⟨rfl, rfl⟩ := Prod.mk.inj same
      exact .inl ⟨rfl, stands⟩
    next => exact .inr ⟨different, inner, among, stands⟩
  next =>
    rintro (⟨rfl, stands⟩ | ⟨different, inner, among, stands⟩)
    next => exact ⟨value, (Mapping.mem_insert_text_iff distinct).2 (.inl rfl), stands⟩
    next => exact ⟨inner, (Mapping.mem_insert_text_iff distinct).2 (.inr ⟨among, different⟩), stands⟩

theorem Keyed.insert (keyed : (Value.map entries).Keyed named) (isNamed : named key)
    (keyed' : value.Keyed named) : (Value.map (Mapping.insert entries key value)).Keyed named := by
  obtain ⟨distinct, keys, each⟩ := keyed.of_map
  refine .map (distinct.insert key value) (fun entry member => ?_) fun entry member => ?_
  next =>
    rcases Mapping.key_of_mem_insert member with ⟨-, same | ⟨old, among⟩⟩ | among
    next => exact same ▸ isNamed
    next => exact keys (entry.1, old) among
    next => exact keys entry among
  next =>
    rcases Mapping.key_of_mem_insert member with ⟨same, -⟩ | among
    next => exact same ▸ keyed'
    next => exact each entry among

end Setting

section Layers

-- Only mappings are joined.
theorem over_cases (lower upper : Value) :
    (∃ entries entries', lower = .map entries ∧ upper = .map entries') ∨
      lower.over upper = upper := by
  cases lower with
  | map entries =>
    cases upper with
    | map entries' => exact .inl ⟨entries, entries', rfl, rfl⟩
    | _ => exact .inr rfl
  | _ => cases upper <;> exact .inr rfl

theorem over_of_leaf (isLeaf : upper.isMap = false) (lower : Value) : lower.over upper = upper := by
  refine (over_cases lower upper).resolve_left ?_
  rintro ⟨entries, entries', -, rfl⟩
  cases isLeaf

variable (agree : ∀ first second, named first → named' second → first.same second = true →
  first = second)

include agree

theorem agree_of_keyed {first second : Mapping} (keyed : (Value.map first).Keyed named)
    (keyed' : (Value.map second).Keyed named') : first.Agree second := by
  intro entry member entry' member' same
  exact agree _ _ (keyed.of_map.2.1 entry member) (keyed'.of_map.2.1 entry' member') same

theorem at_over_of_upper (keyed : lower.Keyed named) (keyed' : upper.Keyed named')
    (stands : upper.At path found) (isLeaf : found.isMap = false) :
    (lower.over upper).At path found := by
  induction path generalizing lower upper with
  | nil =>
    obtain rfl := at_nil_iff.1 stands
    exact over_of_leaf isLeaf lower
  | cons key path ih =>
    rcases over_cases lower upper with ⟨entries, entries', rfl, rfl⟩ | upperOnly
    next =>
      obtain ⟨value, member, stands⟩ := stands
      have both := agree_of_keyed agree keyed keyed'
      refine ⟨Mapping.joined entries key value,
        (Mapping.mem_over_iff keyed.of_map.1 keyed'.of_map.1 both).2 (.inl ⟨value, member, rfl⟩), ?_⟩
      unfold Mapping.joined
      split
      next old there =>
        obtain ⟨other, among, -⟩ := Mapping.mem_of_get? there
        exact ih (keyed.of_map.2.2 _ among) (keyed'.of_map.2.2 _ member) stands
      next => exact stands
    next => rwa [upperOnly]

theorem at_over_of_lower (keyed : lower.Keyed named) (keyed' : upper.Keyed named')
    (stands : lower.At path found) (silent : upper.Silent path) :
    (lower.over upper).At path found := by
  induction path generalizing lower upper with
  | nil => exact absurd silent not_silent_nil
  | cons key path ih =>
    obtain ⟨entries, rfl⟩ := exists_map_of_at stands
    obtain ⟨entries', rfl⟩ := silent.exists_map
    obtain ⟨old, member, stands⟩ := stands
    have both := agree_of_keyed agree keyed keyed'
    have members (entry : Scalar × Value) :=
      @Mapping.mem_over_iff _ _ entry keyed.of_map.1 keyed'.of_map.1 both
    by_cases there : ∃ value, (key, value) ∈ entries'
    next =>
      obtain ⟨value, member'⟩ := there
      refine ⟨old.over value, (members _).2 (.inl ⟨value, member', ?_⟩), ?_⟩
      next => rw [Mapping.joined, keyed.of_map.1.get?_of_mem member]
      next =>
        exact ih (keyed.of_map.2.2 _ member) (keyed'.of_map.2.2 _ member') stands
          (silent_cons_iff.1 silent value member')
    next =>
      refine ⟨old, (members _).2 (.inr ⟨member, fun other among => ?_⟩), stands⟩
      by_contra same
      rw [Bool.not_eq_false] at same
      have equal : key = other.1 := both _ member other among same
      exact there ⟨other.2, equal ▸ among⟩

theorem at_over_iff (keyed : lower.Keyed named) (keyed' : upper.Keyed named')
    (isLeaf : found.isMap = false) : (lower.over upper).At path found ↔
      upper.At path found ∨ lower.At path found ∧ upper.Silent path := by
  constructor
  case mpr =>
    rintro (stands | ⟨stands, silent⟩)
    next => exact at_over_of_upper agree keyed keyed' stands isLeaf
    next => exact at_over_of_lower agree keyed keyed' stands silent
  intro stands
  -- Both layers go on along the path as long as both have its keys.
  induction path generalizing lower upper with
  | nil =>
    rcases over_cases lower upper with ⟨entries, entries', rfl, rfl⟩ | upperOnly
    next =>
      rw [← at_nil_iff.1 stands] at isLeaf
      cases isLeaf
    next => exact .inl (upperOnly ▸ stands)
  | cons key path ih =>
    rcases over_cases lower upper with ⟨entries, entries', rfl, rfl⟩ | upperOnly
    next =>
      have spelled := agree_of_keyed agree keyed keyed'
      obtain ⟨distinct, -, each⟩ := keyed.of_map
      obtain ⟨distinct', -, each'⟩ := keyed'.of_map
      obtain ⟨inner, member, stands⟩ := stands
      rcases Mapping.mem_over_cases distinct distinct' spelled member with
        ⟨old, value, among, member', rfl⟩ | member' | ⟨among, others⟩
      next =>
        refine (ih (each _ among) (each' _ member') stands).imp (⟨value, member', ·⟩) ?_
        rintro ⟨stands, silent⟩
        refine ⟨⟨old, among, stands⟩, silent_cons_iff.2 fun other among' => ?_⟩
        rwa [distinct'.eq_of_mem among' member']
      next => exact .inl ⟨inner, member', stands⟩
      next =>
        refine .inr ⟨⟨inner, among, stands⟩, silent_cons_iff.2 fun value member' => ?_⟩
        exact absurd member' (others value)
    next => exact .inl (upperOnly ▸ stands)

theorem exists_at_of_over (keyed : lower.Keyed named) (keyed' : upper.Keyed named')
    (stands : (lower.over upper).At path found) :
    ∃ other, lower.At path other ∨ upper.At path other := by
  induction path generalizing lower upper with
  | nil => exact ⟨lower, .inl rfl⟩
  | cons key path ih =>
    rcases over_cases lower upper with ⟨entries, entries', rfl, rfl⟩ | upperOnly
    next =>
      have spelled := agree_of_keyed agree keyed keyed'
      obtain ⟨distinct, -, each⟩ := keyed.of_map
      obtain ⟨distinct', -, each'⟩ := keyed'.of_map
      obtain ⟨inner, member, stands⟩ := stands
      rcases Mapping.mem_over_cases distinct distinct' spelled member with
        ⟨old, value, among, member', rfl⟩ | member' | ⟨among, -⟩
      next =>
        obtain ⟨other, stands'⟩ := ih (each _ among) (each' _ member') stands
        exact ⟨other, stands'.imp (⟨old, among, ·⟩) (⟨value, member', ·⟩)⟩
      next => exact ⟨found, .inr ⟨inner, member', stands⟩⟩
      next => exact ⟨found, .inl ⟨inner, among, stands⟩⟩
    next => exact ⟨found, .inr (upperOnly ▸ stands)⟩

theorem Keyed.over (keyed : lower.Keyed named) (keyed' : upper.Keyed named') :
    (lower.over upper).Keyed fun key => named key ∨ named' key := by
  induction keyed' generalizing lower with
  | leaf isLeaf =>
    rw [over_of_leaf isLeaf]
    exact .leaf isLeaf
  | @map entries' distinct' keys' each' ih =>
    have upperKeyed : (Value.map entries').Keyed named' := .map distinct' keys' each'
    rcases over_cases lower (Value.map entries') with ⟨entries, _, rfl, same⟩ | upperOnly
    next =>
      obtain rfl := Value.map.inj same
      have spelled := agree_of_keyed agree keyed upperKeyed
      obtain ⟨distinct, keys, each⟩ := keyed.of_map
      have part (entry : Scalar × Value) (member : entry ∈ Mapping.over entries entries') :
          (named entry.1 ∨ named' entry.1) ∧ entry.2.Keyed fun key => named key ∨ named' key := by
        obtain ⟨key, value⟩ := entry
        rcases Mapping.mem_over_cases distinct distinct' spelled member with
          ⟨old, new, among, among', rfl⟩ | among | ⟨among, -⟩
        next => exact ⟨.inl (keys (key, old) among), ih _ among' (each _ among)⟩
        next => exact ⟨.inr (keys' _ among), (each' _ among).mono fun _ => .inr⟩
        next => exact ⟨.inl (keys _ among), (each _ among).mono fun _ => .inl⟩
      exact .map (distinct.over _) (fun entry member => (part entry member).1)
        fun entry member => (part entry member).2
    next =>
      rw [upperOnly]
      exact upperKeyed.mono fun _ => .inr

end Layers

end Value
end Inlay
