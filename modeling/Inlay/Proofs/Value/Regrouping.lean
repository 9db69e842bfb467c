import Inlay.Proofs.Value.Keys

set_option autoImplicit false

namespace Inlay

open Text

namespace Value

def over? : Option Value → Option Value → Option Value
  | lower, none => lower
  | none, upper => upper
  | some lower, some upper => some (lower.over upper)

@[simp] theorem over?_none (lower : Option Value) : over? lower none = lower := by
  cases lower <;> rfl

@[simp] theorem none_over? (upper : Option Value) : over? none upper = upper := by
  cases upper <;> rfl

theorem isSome_over? (lower upper : Option Value) :
    (over? lower upper).isSome = (lower.isSome || upper.isSome) := by
  cases lower <;> cases upper <;> rfl

theorem map_over_map (lower upper : Mapping) :
    (map lower).over (map upper) = map (lower.over upper) := by
  rw [Value.over]

end Value

namespace Mapping

def keys (mapping : Mapping) : List Scalar :=
  mapping.map (·.1)

structure Sound (mapping : Mapping) : Prop where
  each : ∀ entry ∈ mapping, entry.1.IsSound
  distinct : mapping.Distinct

variable {mapping lower middle upper : Mapping} {key other : Scalar} {value : Value}

theorem keys_cons (entry : Scalar × Value) (mapping : Mapping) :
    Mapping.keys (entry :: mapping) = entry.1 :: mapping.keys := rfl

theorem mem_keys_iff : key ∈ mapping.keys ↔ ∃ value, (key, value) ∈ mapping := by
  simp [keys]

instance (mapping : Mapping) : Decidable mapping.Distinct :=
  inferInstanceAs (Decidable (mapping.Pairwise _))

instance (mapping : Mapping) : Decidable mapping.Sound :=
  decidable_of_iff ((∀ entry ∈ mapping, entry.1.IsSound) ∧ mapping.Distinct)
    ⟨fun ⟨each, distinct⟩ => ⟨each, distinct⟩, fun ⟨each, distinct⟩ => ⟨each, distinct⟩⟩

theorem Sound.cons {entry : Scalar × Value} (sound : Mapping.Sound (entry :: mapping)) :
    entry.1.IsSound ∧ (∀ other ∈ mapping, entry.1.same other.1 = false) ∧ mapping.Sound := by
  obtain ⟨first, each⟩ := List.forall_mem_cons.1 sound.each
  obtain ⟨apart, distinct⟩ := List.pairwise_cons.1 sound.distinct
  exact ⟨first, apart, each, distinct⟩

theorem Sound.of_mem_keys (sound : mapping.Sound) (member : key ∈ mapping.keys) : key.IsSound := by
  obtain ⟨value, member⟩ := mem_keys_iff.1 member
  exact sound.each _ member

theorem get?_cons (mapping : Mapping) (other : Scalar) (value : Value) (key : Scalar) :
    Mapping.get? ((other, value) :: mapping) key =
      if other.same key = true then some value else mapping.get? key := by
  unfold get?
  rw [List.find?_cons]
  cases other.same key <;> rfl

theorem contains_eq_any (mapping : Mapping) (key : Scalar) :
    mapping.contains key = mapping.keys.any (·.same key) := by
  rw [contains, keys, List.any_map]
  rfl

theorem contains_eq_isSome (mapping : Mapping) (key : Scalar) :
    mapping.contains key = (mapping.get? key).isSome := by
  rw [contains, get?, Option.isSome_map, Bool.eq_iff_iff, List.find?_isSome, List.any_eq_true]

theorem contains_of_mem_keys (member : key ∈ mapping.keys) : mapping.contains key = true := by
  rw [contains_eq_any]
  exact List.any_eq_true.2 ⟨key, member, key.same_self⟩

theorem Sound.get?_congr (sound : mapping.Sound) (isSound : key.IsSound) (isSound' : other.IsSound)
    (one : key.same other = true) : mapping.get? key = mapping.get? other := by
  induction mapping with
  | nil => rfl
  | cons entry mapping ih =>
    obtain ⟨name, value⟩ := entry
    obtain ⟨first, -, rest⟩ := sound.cons
    rw [get?_cons, get?_cons, ih rest, Scalar.same_comm first isSound,
      Scalar.same_comm first isSound', Scalar.same_congr isSound isSound' one first]

theorem Sound.eq_of_keys {mapping' : Mapping} (sound : mapping.Sound) (sound' : mapping'.Sound)
    (sameKeys : mapping.keys = mapping'.keys)
    (each : ∀ key, key.IsSound → mapping.get? key = mapping'.get? key) : mapping = mapping' := by
  refine List.ext_getElem (by simpa [keys] using congrArg List.length sameKeys) ?_
  intro index inside inside'
  have names : mapping[index].1 = mapping'[index].1 := by
    simpa [keys] using List.getElem_of_eq sameKeys (by simpa [keys] using inside)
  have member := List.getElem_mem inside
  have there : mapping.get? mapping[index].1 = some mapping[index].2 :=
    sound.distinct.get?_of_mem member
  have there' : mapping'.get? mapping'[index].1 = some mapping'[index].2 :=
    sound'.distinct.get?_of_mem (List.getElem_mem inside')
  rw [← names, ← each _ (sound.each _ member)] at there'
  exact Prod.ext names (Option.some.inj (there.symm.trans there'))

section Setting

theorem keys_insert (mapping : Mapping) (key : Scalar) (value : Value) :
    (mapping.insert key value).keys =
      if mapping.contains key = true then mapping.keys else mapping.keys ++ [key] := by
  induction mapping with
  | nil => rfl
  | cons entry mapping ih =>
    obtain ⟨name, old⟩ := entry
    have contained : contains ((name, old) :: mapping) key =
        (name.same key || Mapping.contains mapping key) := rfl
    unfold insert
    rw [contained]
    cases name.same key with
    | true => rfl
    | false =>
      rw [if_neg Bool.false_ne_true, keys_cons, ih, keys_cons, Bool.false_or]
      cases Mapping.contains mapping key <;> rfl

theorem Sound.get?_insert (sound : mapping.Sound) (isSound : key.IsSound) (isSound' : other.IsSound)
    (value : Value) : (mapping.insert key value).get? other =
      if key.same other = true then some value else mapping.get? other := by
  induction mapping with
  | nil => exact get?_cons [] key value other
  | cons entry mapping ih =>
    obtain ⟨name, old⟩ := entry
    obtain ⟨first, -, rest⟩ := sound.cons
    unfold insert
    split
    next there =>
      rw [get?_cons, get?_cons, Scalar.same_congr first isSound there isSound']
      split <;> rfl
    next new =>
      rw [get?_cons, get?_cons, ih rest]
      by_cases here : name.same other = true
      next =>
        -- The two keys are not one, so the other one cannot be both of them.
        have apart : ¬ key.same other = true := fun one =>
          new (Scalar.same_trans first isSound here (Scalar.same_symm isSound isSound' one))
        rw [if_pos here, if_neg apart, if_pos here]
      next => rw [if_neg here, if_neg here]

theorem Sound.insert (sound : mapping.Sound) (isSound : key.IsSound) (value : Value) :
    (mapping.insert key value).Sound := by
  refine ⟨fun entry member => ?_, sound.distinct.insert key value⟩
  rcases key_of_mem_insert member with ⟨-, same | ⟨old, among⟩⟩ | among
  next => exact same ▸ isSound
  next => exact sound.each (entry.1, old) among
  next => exact sound.each _ among

end Setting

section Layers

theorem some_joined (lower : Mapping) (key : Scalar) (value : Value) :
    some (lower.joined key value) = Value.over? (lower.get? key) (some value) := by
  unfold joined
  cases lower.get? key <;> rfl

theorem keys_over (lower : Mapping) (distinct : upper.Distinct) :
    (lower.over upper).keys = lower.keys ++ upper.keys.filter (!lower.contains ·) := by
  induction upper generalizing lower with
  | nil => simp [Mapping.over, keys]
  | cons entry upper ih =>
    obtain ⟨key, value⟩ := entry
    obtain ⟨apart, rest⟩ := List.pairwise_cons.1 distinct
    have others (name : Scalar) (member : name ∈ Mapping.keys upper) : key.same name = false := by
      obtain ⟨value, member⟩ := mem_keys_iff.1 member
      exact apart _ member
    have contained (name : Scalar) (member : name ∈ Mapping.keys upper) :
        (lower.insert key (lower.joined key value)).contains name = lower.contains name := by
      rw [contains_eq_any, contains_eq_any, keys_insert]
      split
      next => rfl
      next => simp [others name member]
    rw [over_cons, ih _ rest, keys_insert, keys_cons, List.filter_cons]
    rw [List.filter_congr fun name member => congrArg (!·) (contained name member)]
    cases lower.contains key <;> simp

theorem Sound.get?_over (sound : lower.Sound) (sound' : upper.Sound) (isSound : key.IsSound) :
    (lower.over upper).get? key = Value.over? (lower.get? key) (upper.get? key) := by
  induction upper generalizing lower with
  | nil =>
    rw [Mapping.over]
    exact (Value.over?_none _).symm
  | cons entry upper ih =>
    obtain ⟨name, value⟩ := entry
    obtain ⟨first, apart, rest⟩ := sound'.cons
    rw [over_cons, ih (sound.insert first _) rest, sound.get?_insert first isSound, get?_cons]
    split
    next here =>
      have gone : Mapping.get? upper key = none := by
        refine Option.eq_none_iff_forall_ne_some.2 fun value found => ?_
        obtain ⟨other, member, there⟩ := mem_of_get? found
        have sounds := rest.each _ member
        have one := Scalar.same_trans first sounds here (Scalar.same_symm sounds isSound there)
        cases (apart _ member).symm.trans one
      rw [gone, Value.over?_none, some_joined, sound.get?_congr first isSound here]
    next => rfl

theorem Sound.contains_over (sound : lower.Sound) (sound' : upper.Sound) (isSound : key.IsSound) :
    (lower.over upper).contains key = (lower.contains key || upper.contains key) := by
  rw [contains_eq_isSome, sound.get?_over sound' isSound, Value.isSome_over?,
    contains_eq_isSome, contains_eq_isSome]

theorem Sound.over (sound : lower.Sound) (sound' : upper.Sound) : (lower.over upper).Sound := by
  induction upper generalizing lower with
  | nil => rwa [Mapping.over]
  | cons entry upper ih =>
    obtain ⟨key, value⟩ := entry
    obtain ⟨first, -, rest⟩ := sound'.cons
    rw [over_cons]
    exact ih (sound.insert first _) rest

theorem Sound.over_eq_of_keys (sound : lower.Sound) (sound' : upper.Sound)
    (old : ∀ key ∈ upper.keys, lower.contains key = true)
    (each : ∀ key, key.IsSound → Value.over? (lower.get? key) (upper.get? key) = lower.get? key) :
    lower.over upper = lower := by
  refine (sound.over sound').eq_of_keys sound ?_ fun key isSound => ?_
  next =>
    have none_new : upper.keys.filter (!lower.contains ·) = [] :=
      List.filter_eq_nil_iff.2 fun key member => by simp [old key member]
    rw [keys_over lower sound'.distinct, none_new, List.append_nil]
  next => rw [sound.get?_over sound' isSound, each key isSound]

theorem Sound.keys_over_over (sound : lower.Sound) (sound' : middle.Sound) (sound'' : upper.Sound) :
    ((lower.over middle).over upper).keys = (lower.over (middle.over upper)).keys := by
  have new (key : Scalar) (member : key ∈ upper.keys) :
      (!(lower.over middle).contains key) = (!lower.contains key && !middle.contains key) := by
    rw [sound.contains_over sound' (sound''.of_mem_keys member), Bool.not_or]
  rw [keys_over _ sound''.distinct, keys_over lower sound'.distinct,
    keys_over lower (sound'.over sound'').distinct, keys_over middle sound''.distinct,
    List.filter_append, List.filter_filter, List.filter_congr new, List.append_assoc]

theorem Sound.over_assoc (sound : lower.Sound) (sound' : middle.Sound) (sound'' : upper.Sound)
    (each : ∀ key, key.IsSound →
      Value.over? (Value.over? (lower.get? key) (middle.get? key)) (upper.get? key) =
        Value.over? (lower.get? key) (Value.over? (middle.get? key) (upper.get? key))) :
    (lower.over middle).over upper = lower.over (middle.over upper) := by
  have above := sound'.over sound''
  have below := sound.over sound'
  refine (below.over sound'').eq_of_keys (sound.over above) (sound.keys_over_over sound' sound'')
    fun key isSound => ?_
  rw [below.get?_over sound'' isSound, sound.get?_over sound' isSound, sound.get?_over above isSound,
    sound'.get?_over sound'' isSound, each key isSound]

end Layers

end Mapping

namespace Value

variable {value lower middle upper : Value}

theorem exists_map_of_isMap (isMap : value.isMap = true) : ∃ entries, value = map entries := by
  cases value with
  | map entries => exact ⟨entries, rfl⟩
  | _ => cases isMap

theorem leaf_over (isLeaf : lower.isMap = false) (upper : Value) : lower.over upper = upper := by
  refine (over_cases lower upper).resolve_left ?_
  rintro ⟨entries, entries', rfl, -⟩
  cases isLeaf

theorem Keyed.sound {entries : Mapping} (keyed : (Value.map entries).Keyed Scalar.IsSound) :
    entries.Sound :=
  ⟨keyed.of_map.2.1, keyed.of_map.1⟩

section Repetition

theorem over_self (keyed : value.Keyed Scalar.IsSound) : value.over value = value := by
  induction keyed with
  | leaf isLeaf => exact over_of_leaf isLeaf _
  | @map entries distinct keys each ih =>
    have sound : entries.Sound := ⟨keys, distinct⟩
    rw [map_over_map]
    refine congrArg map (sound.over_eq_of_keys sound
      (fun key member => Mapping.contains_of_mem_keys member) fun key isSound => ?_)
    cases found : Mapping.get? entries key with
    | none => rfl
    | some value =>
      obtain ⟨other, member, -⟩ := Mapping.mem_of_get? found
      exact congrArg some (ih _ member)

theorem over_over (keyed : lower.Keyed Scalar.IsSound) (keyed' : upper.Keyed Scalar.IsSound) :
    (lower.over upper).over upper = lower.over upper := by
  induction keyed' generalizing lower with
  | leaf isLeaf => rw [over_of_leaf isLeaf, over_of_leaf isLeaf]
  | @map entries' distinct' keys' each' ih =>
    have sound' : entries'.Sound := ⟨keys', distinct'⟩
    rcases over_cases lower (map entries') with ⟨entries, _, rfl, same⟩ | upperOnly
    next =>
      obtain rfl := Value.map.inj same
      have sound := keyed.sound
      rw [map_over_map, map_over_map]
      refine congrArg map ((sound.over sound').over_eq_of_keys sound' (fun key member => ?_)
        fun key isSound => ?_)
      next =>
        rw [sound.contains_over sound' (sound'.of_mem_keys member),
          Mapping.contains_of_mem_keys member, Bool.or_true]
      next =>
        rw [sound.get?_over sound' isSound]
        cases found' : Mapping.get? entries' key with
        | none => rw [over?_none, over?_none]
        | some new =>
          obtain ⟨other', member', -⟩ := Mapping.mem_of_get? found'
          cases found : Mapping.get? entries key with
          | none => exact congrArg some (over_self (each' _ member'))
          | some old =>
            obtain ⟨other, member, -⟩ := Mapping.mem_of_get? found
            exact congrArg some (ih _ member' (keyed.of_map.2.2 _ member))
    next =>
      rw [upperOnly]
      exact over_self (.map distinct' keys' each')

end Repetition

section Grouping

def along? : Value → List Scalar → Option Value
  | value, [] => some value
  | map entries, key :: path => (Mapping.get? entries key).bind (·.along? path)
  | _, _ :: _ => none

-- No path leads to a mapping in one value and to something else in another.
def Aligned (values : List Value) : Prop :=
  ∀ path : List Scalar, (∀ key ∈ path, key.IsSound) → ∀ value ∈ values, ∀ other ∈ values,
    ∀ found found', value.along? path = some found → other.along? path = some found' →
      found.isMap = found'.isMap

-- No path leads to mappings in the outer two values and to something else between them.
def Unbroken (lower middle upper : Value) : Prop :=
  ∀ path : List Scalar, (∀ key ∈ path, key.IsSound) → ∀ found between found',
    lower.along? path = some found → middle.along? path = some between →
      upper.along? path = some found' → found.isMap = true → found'.isMap = true →
        between.isMap = true

theorem Aligned.unbroken (aligned : Aligned [lower, middle, upper]) :
    Unbroken lower middle upper := by
  intro path sound found between found' there inside _ isMap _
  rw [← aligned path sound lower (by simp) middle (by simp) found between there inside]
  exact isMap

variable {entries entries' between : Mapping} {key : Scalar} {first second third : Value}

theorem Unbroken.of_get? (unbroken : Unbroken (map entries) (map between) (map entries'))
    (isSound : key.IsSound) (found : Mapping.get? entries key = some first)
    (inside : Mapping.get? between key = some second)
    (found' : Mapping.get? entries' key = some third) : Unbroken first second third := by
  intro path sound last last' last'' there there' there''
  refine unbroken (key :: path) (List.forall_mem_cons.2 ⟨isSound, sound⟩) last last' last'' ?_ ?_ ?_
  next => rw [along?, found, Option.bind_some, there]
  next => rw [along?, inside, Option.bind_some, there']
  next => rw [along?, found', Option.bind_some, there'']

theorem over_assoc (keyed : lower.Keyed Scalar.IsSound) (keyed' : middle.Keyed Scalar.IsSound)
    (keyed'' : upper.Keyed Scalar.IsSound) (unbroken : Unbroken lower middle upper) :
    (lower.over middle).over upper = lower.over (middle.over upper) := by
  induction keyed'' generalizing lower middle with
  | leaf isLeaf => rw [over_of_leaf isLeaf, over_of_leaf isLeaf, over_of_leaf isLeaf]
  | @map entries'' distinct'' keys'' each'' ih =>
    have sound'' : entries''.Sound := ⟨keys'', distinct''⟩
    cases isMap : lower.isMap with
    | false => rw [leaf_over isMap, leaf_over isMap]
    | true =>
      have isMap' : middle.isMap = true := unbroken [] nofun _ _ _ rfl rfl rfl isMap rfl
      obtain ⟨entries, rfl⟩ := exists_map_of_isMap isMap
      obtain ⟨entries', rfl⟩ := exists_map_of_isMap isMap'
      simp only [map_over_map]
      refine congrArg map (keyed.sound.over_assoc keyed'.sound sound'' fun key isSound => ?_)
      cases found : Mapping.get? entries key with
      | none => rw [none_over?, none_over?]
      | some first =>
        cases found' : Mapping.get? entries' key with
        | none => rw [over?_none, none_over?]
        | some second =>
          cases found'' : Mapping.get? entries'' key with
          | none => rw [over?_none, over?_none]
          | some third =>
            obtain ⟨name, member, -⟩ := Mapping.mem_of_get? found
            obtain ⟨name', member', -⟩ := Mapping.mem_of_get? found'
            obtain ⟨name'', member'', -⟩ := Mapping.mem_of_get? found''
            exact congrArg some (ih _ member'' (keyed.of_map.2.2 _ member)
              (keyed'.of_map.2.2 _ member') (unbroken.of_get? isSound found found' found''))

end Grouping

section Cases

variable {key : Scalar} {values : List Value}

theorem keyed_of_leaves {entries : Mapping} (sound : entries.Sound)
    (leaves : ∀ entry ∈ entries, entry.2.isMap = false) : (map entries).Keyed Scalar.IsSound :=
  .map sound.distinct sound.each fun entry member => .leaf (leaves entry member)

theorem along?_of_leaf {value found : Value} {path : List Scalar} (isLeaf : value.isMap = false)
    (there : value.along? path = some found) : found.isMap = false := by
  cases path with
  | nil => exact Option.some.inj there ▸ isLeaf
  | cons key path =>
    cases value with
    | map entries => cases isLeaf
    | _ => cases there

theorem aligned_of_leaves (each : ∀ value ∈ values, value.isMap = false) : Aligned values := by
  intro path _ value member other member' found found' there there'
  rw [along?_of_leaf (each value member) there, along?_of_leaf (each other member') there']

theorem aligned_under_of_leaves {mappings : List Mapping} (leaves : ∀ entries ∈ mappings,
    ∀ entry ∈ entries, entry.1.same key = true → entry.2.isMap = false) :
    Aligned (mappings.filterMap (Mapping.get? · key)) := by
  refine aligned_of_leaves fun value member => ?_
  obtain ⟨entries, among, found⟩ := List.mem_filterMap.1 member
  obtain ⟨other, there, one⟩ := Mapping.mem_of_get? found
  exact leaves entries among _ there one

theorem aligned_of_each {mappings : List Mapping}
    (each : ∀ key : Scalar, key.IsSound → Aligned (mappings.filterMap (Mapping.get? · key))) :
    Aligned (mappings.map map) := by
  intro path sound value member other member' found found' there there'
  obtain ⟨entries, among, rfl⟩ := List.mem_map.1 member
  obtain ⟨entries', among', rfl⟩ := List.mem_map.1 member'
  cases path with
  | nil => rw [← Option.some.inj there, ← Option.some.inj there']; rfl
  | cons key path =>
    obtain ⟨isSound, rest⟩ := List.forall_mem_cons.1 sound
    obtain ⟨inner, under, further⟩ := Option.bind_eq_some_iff.1 there
    obtain ⟨inner', under', further'⟩ := Option.bind_eq_some_iff.1 there'
    exact each key isSound path rest inner (List.mem_filterMap.2 ⟨entries, among, under⟩) inner'
      (List.mem_filterMap.2 ⟨entries', among', under'⟩) found found' further further'

end Cases

end Value

/-- Laying a mapping over another one is repeatable and, where mappings meet nothing but mappings,
associative. Keys of the lower layer come first. -/
theorem Mapping.over_regrouped {a b c : Mapping} (keyed : (Value.map a).Keyed Scalar.IsSound)
    (keyed' : (Value.map b).Keyed Scalar.IsSound) (keyed'' : (Value.map c).Keyed Scalar.IsSound) :
    (Value.map a).layer (.map b) = .ok (a.over b) ∧
      (a.over b).over b = a.over b ∧ a.over a = a ∧
      (a.over b).keys = a.keys ++ b.keys.filter (!a.contains ·) ∧
      (Value.Aligned [.map a, .map b, .map c] → (a.over b).over c = a.over (b.over c)) := by
  refine ⟨?_, ?_, ?_, keys_over a keyed'.of_map.1, fun aligned => ?_⟩
  next =>
    cases b with
    | nil => rw [Mapping.over]; rfl
    | cons entry b => rfl
  next => simpa [Value.map_over_map] using Value.over_over keyed keyed'
  next => simpa [Value.map_over_map] using Value.over_self keyed
  next => simpa [Value.map_over_map] using Value.over_assoc keyed keyed' keyed'' aligned.unbroken

namespace Layers

-- Layers in which the number one is a key in three forms.
def numbered : Mapping :=
  [("logging", .map [("level", .text "WARNING")]), (.int 1, .text "one")]

def affirmed : Mapping :=
  [(.bool true, .text "true"), ("logging", .map [("file", .text "out")])]

def measured : Mapping :=
  [("logging", .map [("level", .text "DEBUG")]),
   (.float (.finite false Double.mantissaUnit (-52)), .text "1.0")]

theorem keyed_numbered : (Value.map numbered).Keyed Scalar.IsSound := by
  refine .map (by decide) (by decide) (List.forall_mem_cons.2 ⟨?_, ?_⟩)
  next => exact Value.keyed_of_leaves (by decide) (by decide)
  next => exact List.forall_mem_cons.2 ⟨.leaf rfl, nofun⟩

theorem keyed_affirmed : (Value.map affirmed).Keyed Scalar.IsSound := by
  refine .map (by decide) (by decide) (List.forall_mem_cons.2 ⟨.leaf rfl, ?_⟩)
  refine List.forall_mem_cons.2 ⟨?_, nofun⟩
  exact Value.keyed_of_leaves (by decide) (by decide)

theorem keyed_measured : (Value.map measured).Keyed Scalar.IsSound := by
  refine .map (by decide) (by decide) (List.forall_mem_cons.2 ⟨?_, ?_⟩)
  next => exact Value.keyed_of_leaves (by decide) (by decide)
  next => exact List.forall_mem_cons.2 ⟨.leaf rfl, nofun⟩

theorem aligned_numbered :
    Value.Aligned ([numbered, affirmed, measured].map Value.map) := by
  refine Value.aligned_of_each fun key isSound => ?_
  by_cases name : key = .text "logging"
  next =>
    subst name
    have leaves : ∀ entries ∈ ([[("level", .text "WARNING")], [("file", .text "out")],
        [("level", .text "DEBUG")]] : List Mapping), ∀ entry ∈ entries,
          entry.2.isMap = false := by decide
    have inside := Value.aligned_of_each fun key _ => Value.aligned_under_of_leaves
      fun entries member entry member' (_ : entry.1.same key = true) =>
        leaves entries member entry member'
    exact inside
  next =>
    refine Value.aligned_under_of_leaves ?_
    have leaves : ∀ entries ∈ [numbered, affirmed, measured], ∀ entry ∈ entries,
        entry.1 = .text "logging" ∨ entry.2.isMap = false := by decide
    intro entries member entry member' one
    refine (leaves entries member entry member').resolve_left fun same => name ?_
    rw [same] at one
    exact Scalar.text_same_iff.1 one

theorem over_regrouped_of_numbered :
    (numbered.over affirmed).over affirmed = numbered.over affirmed ∧
      (numbered.over affirmed).keys = [.text "logging", .int 1] ∧
      (numbered.over affirmed).over measured = numbered.over (affirmed.over measured) := by
  obtain ⟨-, twice, -, names, grouped⟩ :=
    Mapping.over_regrouped keyed_numbered keyed_affirmed keyed_measured
  exact ⟨twice, names, grouped aligned_numbered⟩

end Layers
end Inlay
