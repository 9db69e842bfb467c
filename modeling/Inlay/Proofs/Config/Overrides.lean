import Inlay.Config.Environment
import Inlay.Proofs.Text.Order
import Inlay.Proofs.Text.Split
import Inlay.Proofs.Value.Layering
import Mathlib.Data.List.MinMax

set_option autoImplicit false

namespace Inlay

open Text

def keysOf (path : List Text) : List Scalar :=
  path.map Scalar.text

theorem keysOf_prefix_iff {first second : List Text} :
    keysOf first <+: keysOf second ↔ first <+: second :=
  List.prefix_map_iff_of_injective fun _ _ same => Scalar.text.inj same

def Apart (first second : List Scalar) : Prop :=
  ¬ first <+: second ∧ ¬ second <+: first

theorem apart_cons_iff {key : Scalar} {first second : List Scalar} :
    Apart (key :: first) (key :: second) ↔ Apart first second := by
  simp [Apart]

theorem apart_of_ne {key other : Scalar} (different : key ≠ other) (first second : List Scalar) :
    Apart (key :: first) (other :: second) := by
  simp [Apart, List.cons_prefix_cons, different, Ne.symm different]

namespace Environment

variable {values : Mapping} {path : List Text} {place : List Scalar} {value : Scalar}
variable {found : Value} {key : Text} {named : Scalar → Prop}

def under (values : Mapping) (key : Text) : Mapping :=
  ((values.get? (.text key)).bind Value.asMap?).getD []

theorem keyed_under (keyed : (Value.map values).Keyed named) (key : Text) :
    (Value.map (under values key)).Keyed named := by
  unfold under
  cases there : values.get? (.text key) with
  | none => exact Value.keyed_empty
  | some inner =>
    obtain ⟨other, member, -⟩ := Mapping.mem_of_get? there
    cases inner with
    | map entries => exact keyed.of_map.2.2 _ member
    | _ => exact Value.keyed_empty

theorem at_under_iff (distinct : values.Distinct) (inside : place ≠ []) :
    (Value.map (under values key)).At place found ↔
      (Value.map values).At (.text key :: place) found := by
  obtain ⟨first, rest, rfl⟩ := List.exists_cons_of_ne_nil inside
  rw [Value.at_text_iff distinct]
  unfold under
  cases there : values.get? (.text key) with
  | none =>
    simp only [reduceCtorEq, false_and, exists_false, iff_false]
    exact Value.not_at_empty
  | some inner =>
    simp only [Option.some.injEq, exists_eq_left']
    cases inner with
    | map entries => exact Iff.rfl
    | _ => exact iff_of_false Value.not_at_empty (Value.not_at_of_leaf rfl)

theorem setAt_cons (values : Mapping) (key next : Text) (path : List Text) (value : Value) :
    setAt values (key :: next :: path) value =
      values.insert (.text key) (.map (setAt (under values key) (next :: path) value)) :=
  rfl

theorem keyed_setAt (keyed : (Value.map values).Keyed named) (texts : ∀ name, named (.text name))
    (path : List Text) (value : Scalar) :
    (Value.map (setAt values path (.scalar value))).Keyed named := by
  induction path generalizing values with
  | nil => exact keyed
  | cons key path ih =>
    cases path with
    | nil => exact keyed.insert (texts key) (.leaf rfl)
    | cons next path =>
      rw [setAt_cons]
      exact keyed.insert (texts key) (ih (keyed_under keyed key))

theorem at_setAt_iff (keyed : (Value.map values).Keyed named) (inside : path ≠ [])
    (isLeaf : found.isMap = false) :
    (Value.map (setAt values path (.scalar value))).At place found ↔
      place = keysOf path ∧ found = .scalar value ∨
        Apart place (keysOf path) ∧ (Value.map values).At place found := by
  -- Along the path. Behind its first key the mapping is a new one over what was `under` the key.
  induction path generalizing values place with
  | nil => exact absurd rfl inside
  | cons key path ih =>
    cases place with
    | nil =>
      have whole (entries : Mapping) : ¬ (Value.map entries).At [] found :=
        fun stands => Value.ne_nil_of_leaf stands isLeaf rfl
      simp [whole, keysOf, Apart]
    | cons first place =>
      cases path with
      | nil =>
        have leaf : (Value.scalar value).At place found ↔ place = [] ∧ found = .scalar value := by
          cases place with
          | nil => simp [eq_comm]
          | cons next place =>
            simpa using Value.not_at_of_leaf rfl
        rw [setAt, Value.at_insert_iff keyed.of_map.1, leaf]
        by_cases same : first = .text key
        next => simp [same, keysOf, Apart]
        next => simp [same, keysOf, apart_of_ne same]
      | cons next path =>
        rw [setAt_cons, Value.at_insert_iff keyed.of_map.1]
        by_cases same : first = .text key
        next =>
          have inner := @ih (under values key) place (keyed_under keyed key) (by simp)
          have behind : Apart place (keysOf (next :: path)) → place ≠ [] := by
            rintro ⟨apart, -⟩ rfl
            exact apart List.nil_prefix
          rw [same, inner]
          simp only [true_and, not_true, false_and, or_false, ne_eq, keysOf, List.map_cons,
            List.cons.injEq, apart_cons_iff]
          refine or_congr_right (and_congr_right fun apart => ?_)
          exact at_under_iff keyed.of_map.1 (behind apart)
        next => simp [same, keysOf, apart_of_ne same]

theorem exists_at_of_setAt (keyed : (Value.map values).Keyed named)
    (stands : (Value.map (setAt values path (.scalar value))).At place found) :
    place <+: keysOf path ∨ ∃ other, (Value.map values).At place other := by
  induction path generalizing values place with
  | nil => exact .inr ⟨found, stands⟩
  | cons key path ih =>
    cases place with
    | nil => exact .inl List.nil_prefix
    | cons first place =>
      cases path with
      | nil =>
        rcases (Value.at_insert_iff keyed.of_map.1).1 stands with ⟨rfl, inner⟩ | ⟨-, before⟩
        next =>
          cases place with
          | nil => exact .inl (List.prefix_refl _)
          | cons next place => exact absurd inner (Value.not_at_of_leaf rfl)
        next => exact .inr ⟨found, before⟩
      | cons next path =>
        rw [setAt_cons] at stands
        rcases (Value.at_insert_iff keyed.of_map.1).1 stands with ⟨rfl, inner⟩ | ⟨-, before⟩
        next =>
          by_cases inside : place = []
          next =>
            subst inside
            exact .inl ((List.prefix_cons_inj _).2 List.nil_prefix)
          next =>
            refine (ih (keyed_under keyed key) inner).imp (List.prefix_cons_inj _).2 ?_
            exact fun ⟨other, before⟩ => ⟨other, (at_under_iff keyed.of_map.1 inside).1 before⟩
        next => exact .inr ⟨found, before⟩

section Writing

def settings (bindings : List (Text × Text)) : List (List Text × Scalar) :=
  bindings.filterMap fun (name, value) =>
    match path? name, coerce value with
    | some path, .ok value => some (path, value)
    | _, _ => none

def writeAll (values : Mapping) (settings : List (List Text × Scalar)) : Mapping :=
  settings.foldl (fun values (path, value) => setAt values path (.scalar value)) values

theorem writeAll_cons (values : Mapping) (path : List Text) (value : Scalar)
    (written : List (List Text × Scalar)) : writeAll values ((path, value) :: written) =
      writeAll (setAt values path (.scalar value)) written :=
  rfl

variable {bindings : List (Text × Text)} {written : List (List Text × Scalar)} {name : Text}

theorem segments_ne_nil (name : Text) : segments name ≠ [] := by
  fun_induction segments name with
  | case1 => simp
  | case2 => simp
  | case3 c rest _ ih => cases segments rest <;> simp [consHead]

theorem path?_eq_some_iff : path? name = some path ↔
    (segments name).map lower = path ∧ ∀ key ∈ path, key ≠ [] := by
  have fault : (((segments name).map lower).any (·.isEmpty) = true) ↔
      ¬ ∀ key ∈ (segments name).map lower, key ≠ [] := by simp
  unfold path?
  dsimp only
  split
  next empty =>
    refine iff_of_false nofun ?_
    rintro ⟨rfl, full⟩
    exact fault.1 empty full
  next full =>
    rw [fault, not_not] at full
    rw [Option.some.injEq]
    exact ⟨fun same => ⟨same, same ▸ full⟩, fun ⟨same, _⟩ => same⟩

theorem ne_nil_of_path? (spelled : path? name = some path) : path ≠ [] := by
  rw [← (path?_eq_some_iff.1 spelled).1]
  simpa using segments_ne_nil name

theorem mem_settings_iff : (path, value) ∈ settings bindings ↔
    ∃ name text, (name, text) ∈ bindings ∧ path? name = some path ∧ coerce text = .ok value := by
  rw [settings, List.mem_filterMap]
  constructor
  next =>
    rintro ⟨⟨name, text⟩, member, set⟩
    dsimp only at set
    split at set
    next path' value' spelled coerced =>
      cases set
      exact ⟨name, text, member, spelled, coerced⟩
    next => cases set
  next =>
    rintro ⟨name, text, member, spelled, coerced⟩
    exact ⟨(name, text), member, by simp [spelled, coerced]⟩

theorem overrideAll_eq (journal : Journal)
    (coerces : ∀ name text, (name, text) ∈ bindings → path? name ≠ none →
      ∃ value, coerce text = .ok value) :
    (overrideAll values journal bindings).2 = .ok (writeAll values (settings bindings)) := by
  induction bindings generalizing values journal with
  | nil => rfl
  | cons binding bindings ih =>
    obtain ⟨name, text⟩ := binding
    have later (values : Mapping) (journal : Journal) :=
      @ih values journal fun name text member => coerces name text (List.mem_cons_of_mem _ member)
    unfold overrideAll override
    cases spelled : path? name with
    | none => simpa [settings, spelled] using later values _
    | some path =>
      obtain ⟨value, coerced⟩ := coerces name text List.mem_cons_self (by simp [spelled])
      simpa [settings, spelled, coerced, Except.map, writeAll] using
        later (setAt values path (.scalar value)) _

theorem keyed_writeAll (keyed : (Value.map values).Keyed named) (texts : ∀ name, named (.text name))
    (written : List (List Text × Scalar)) : (Value.map (writeAll values written)).Keyed named := by
  induction written generalizing values with
  | nil => exact keyed
  | cons setting written ih => exact ih (keyed_setAt keyed texts setting.1 setting.2)

theorem at_writeAll_iff (keyed : (Value.map values).Keyed Scalar.IsText)
    (inside : ∀ setting ∈ written, setting.1 ≠ []) (isLeaf : found.isMap = false) :
    (Value.map (writeAll values written)).At place found ↔
      (∃ earlier path value later, written = earlier ++ (path, value) :: later ∧
        place = keysOf path ∧ found = .scalar value ∧
        ∀ setting ∈ later, Apart place (keysOf setting.1)) ∨
      (∀ setting ∈ written, Apart place (keysOf setting.1)) ∧
        (Value.map values).At place found := by
  -- What the first setting makes of the values is where the others begin.
  induction written generalizing values with
  | nil => simp [writeAll]
  | cons setting written ih =>
    obtain ⟨path, value⟩ := setting
    obtain ⟨here, inside⟩ := List.forall_mem_cons.1 inside
    have keyed' := keyed_setAt keyed (fun name => ⟨name, rfl⟩) path value
    rw [writeAll_cons, ih keyed' inside, at_setAt_iff keyed here isLeaf, List.forall_mem_cons]
    constructor
    next =>
      rintro (⟨earlier, path', value', later, rfl, set⟩ | ⟨apart, ⟨rfl, rfl⟩ | ⟨apart', stands⟩⟩)
      next => exact .inl ⟨(path, value) :: earlier, path', value', later, rfl, set⟩
      next => exact .inl ⟨[], path, value, written, rfl, rfl, rfl, apart⟩
      next => exact .inr ⟨⟨apart', apart⟩, stands⟩
    next =>
      rintro (⟨earlier, path', value', later, split, same, rfl, apart⟩ | ⟨⟨apart', apart⟩, stands⟩)
      next =>
        cases earlier with
        | nil =>
          cases split
          exact .inr ⟨apart, .inl ⟨same, rfl⟩⟩
        | cons first earlier =>
          exact .inl ⟨earlier, path', value', later, (List.cons.inj split).2, same, rfl, apart⟩
      next => exact .inr ⟨apart, .inr ⟨apart', stands⟩⟩

theorem exists_at_of_writeAll (keyed : (Value.map values).Keyed Scalar.IsText)
    (stands : (Value.map (writeAll values written)).At place found) :
    (∃ setting ∈ written, place <+: keysOf setting.1) ∨
      ∃ other, (Value.map values).At place other := by
  induction written generalizing values with
  | nil => exact .inr ⟨found, stands⟩
  | cons setting written ih =>
    have keyed' := keyed_setAt keyed (fun name => ⟨name, rfl⟩) setting.1 setting.2
    rcases ih keyed' stands with ⟨other, member, part⟩ | ⟨other, stands'⟩
    next => exact .inl ⟨other, List.mem_cons_of_mem _ member, part⟩
    next =>
      refine (exists_at_of_setAt keyed stands').imp_left ?_
      exact fun part => ⟨setting, List.mem_cons_self, part⟩

end Writing

section Names

variable {environment : Environment} {name text : Text} {other : List Text}

def nameChars : Text := "ABCDEFGHIJKLMNOPQRSTUVWXYZ0123456789_"

/-- Each variable has one value, and the engine's have plain names and values that can be read. -/
structure IsPlain (environment : Environment) : Prop where
  distinct : (environment.map Prod.fst).Nodup
  named : ∀ name value, (mark ++ name, value) ∈ environment → ∀ c ∈ name, c ∈ nameChars
  coerces : ∀ name value, (mark ++ name, value) ∈ environment → ∃ scalar, coerce value = .ok scalar

theorem upper_append (first second : Text) : upper (first ++ second) = upper first ++ upper second :=
  List.flatMap_append

theorem upper_lower (plain : ∀ c ∈ text, c ∈ nameChars) : upper (lower text) = text := by
  have all : (nameChars.all fun c => c != capitalSigma &&
      upper (mapCase lowerRuns lowerExpansions c) == [c]) = true := by decide +kernel
  have each : ∀ c ∈ nameChars, c ≠ capitalSigma ∧
      upper (mapCase lowerRuns lowerExpansions c) = [c] := by simpa using all
  have whole (before : Text) : upper (lowerFrom before text) = text := by
    induction text generalizing before with
    | nil => rfl
    | cons c text ih =>
      obtain ⟨here, plain⟩ := List.forall_mem_cons.1 plain
      obtain ⟨other, one⟩ := each c here
      rw [lowerFrom, lowerBetween, if_neg other, upper_append, one, ih plain, List.singleton_append]
  exact whole []

theorem join_segments (name : Text) : join ['_', '_'] (segments name) = name := by
  have cons (c : Char) (first : Text) (rest : List Text) :
      join ['_', '_'] ((c :: first) :: rest) = c :: join ['_', '_'] (first :: rest) := by
    cases rest <;> rfl
  fun_induction segments name with
  | case1 => rfl
  | case2 rest ih =>
    rw [join_cons _ _ (segments_ne_nil rest), ih]
    rfl
  | case3 c rest _ ih =>
    obtain ⟨first, others, split⟩ := List.exists_cons_of_ne_nil (segments_ne_nil rest)
    rw [split] at ih ⊢
    rw [consHead, cons, ih]

theorem join_of_path? (plain : ∀ c ∈ name, c ∈ nameChars) (spelled : path? name = some path) :
    join ['_', '_'] (path.map upper) = name := by
  obtain ⟨rfl, -⟩ := path?_eq_some_iff.1 spelled
  have whole : ((segments name).map lower).map upper = segments name := by
    rw [List.map_map]
    refine (List.map_congr_left fun part member => ?_).trans (List.map_id _)
    refine upper_lower fun c inside => plain c ?_
    rw [← join_segments name]
    exact subset_join _ member inside
  rw [whole, join_segments]

theorem le_of_prefix {first second : Text} (part : first <+: second) : le first second = true := by
  obtain ⟨rest, rfl⟩ := part
  induction first with
  | nil => exact le_nil _
  | cons c first ih => rwa [List.cons_append, le_cons, if_pos rfl]

theorem mem_own_iff : (name, text) ∈ own environment ↔ (mark ++ name, text) ∈ environment := by
  unfold own
  rw [List.mem_mergeSort, List.mem_filterMap]
  constructor
  next =>
    rintro ⟨⟨whole, value⟩, member, behind⟩
    obtain ⟨rest, cut, same⟩ := Option.map_eq_some_iff.1 behind
    obtain ⟨rfl, rfl⟩ := Prod.mk.inj same
    rwa [← after?_eq_some_iff.1 cut]
  next =>
    intro member
    exact ⟨_, member, by simp [after?_eq_some_iff.2 rfl]⟩

instance : Decidable environment.IsPlain :=
  decidable_of_iff ((environment.map Prod.fst).Nodup ∧
    ∀ binding ∈ environment.filterMap fun (name, value) =>
        (after? mark name).map fun name => (name, value),
      binding.1.all nameChars.contains = true ∧ (coerce binding.2).isOk = true) <| by
  have isOk_iff (text : Text) : (coerce text).isOk = true ↔ ∃ value, coerce text = .ok value := by
    cases coerce text <;> simp [Except.isOk, Except.toBool]
  have own_iff (binding : Text × Text) : (binding ∈ environment.filterMap fun (name, value) =>
      (after? mark name).map fun name => (name, value)) ↔
        (mark ++ binding.1, binding.2) ∈ environment := by
    rw [← mem_own_iff, own, List.mem_mergeSort]
  simp only [isOk_iff, own_iff, List.all_eq_true, List.contains_iff_mem]
  constructor
  next =>
    rintro ⟨distinct, each⟩
    exact ⟨distinct, fun name value member => (each (name, value) member).1,
      fun name value member => (each (name, value) member).2⟩
  next =>
    rintro ⟨distinct, named, coerces⟩
    exact ⟨distinct, fun (name, value) member =>
      ⟨named name value member, coerces name value member⟩⟩

theorem mem_paths_iff : path ∈ environment.paths ↔
    ∃ name text, (mark ++ name, text) ∈ environment ∧ path? name = some path := by
  simp [paths, mem_own_iff]

namespace IsPlain

variable (plain : environment.IsPlain)

include plain

theorem pairwise_own : environment.own.Pairwise fun first second =>
    le first.1 second.1 = true ∧ first.1 ≠ second.1 := by
  have names : ((environment.filterMap fun (name, value) =>
      (after? mark name).map fun name => (name, value)).map Prod.fst).Nodup := by
    have same : (environment.filterMap fun (name, value) =>
        (after? mark name).map fun name => (name, value)).map Prod.fst =
          (environment.map Prod.fst).filterMap (after? mark) := by
      rw [List.map_filterMap, List.filterMap_map]
      congr 1
      funext binding
      simp [Function.comp_def]
    rw [same]
    refine plain.distinct.filterMap fun first second rest cut cut' => ?_
    rw [after?_eq_some_iff.1 cut, after?_eq_some_iff.1 cut']
  have sorted : environment.own.Pairwise fun first second => le first.1 second.1 = true := by
    refine @List.pairwise_mergeSort (Text × Text) (fun first second => le first.1 second.1)
      (fun _ _ _ => Text.le_trans) (fun first second => ?_) _
    simpa using Text.le_total first.1 second.1
  exact sorted.and (List.pairwise_map.1 (((List.mergeSort_perm _ _).map _).nodup_iff.2 names))

theorem pairwise_settings : (settings environment.own).Pairwise fun first second =>
    ¬ keysOf second.1 <+: keysOf first.1 := by
  unfold settings
  rw [List.pairwise_filterMap]
  refine plain.pairwise_own.imp_of_mem ?_
  rintro ⟨name, text⟩ ⟨name', text'⟩ member member' ⟨before, different⟩ ⟨path, value⟩ set ⟨path', value'⟩
    set' part
  have spelled : path? name = some path := by
    dsimp only at set
    split at set <;> simp_all
  have spelled' : path? name' = some path' := by
    dsimp only at set'
    split at set' <;> simp_all
  have named := join_of_path? (plain.named name text (mem_own_iff.1 member)) spelled
  have named' := join_of_path? (plain.named name' text' (mem_own_iff.1 member')) spelled'
  have front : path'.map upper <+: path.map upper := (keysOf_prefix_iff.1 part).map _
  have after := le_of_prefix (prefix_join ['_', '_'] front)
  rw [named, named'] at after
  exact different (Text.le_antisymm before after)

end IsPlain

theorem mem_paths_of_settings (set : (path, value) ∈ settings environment.own) :
    path ∈ environment.paths := by
  obtain ⟨name, text, member, spelled, -⟩ := mem_settings_iff.1 set
  exact mem_paths_iff.2 ⟨name, text, mem_own_iff.1 member, spelled⟩

def Sets (environment : Environment) (path : List Text) (value : Scalar) : Prop :=
  (∃ name text, (mark ++ name, text) ∈ environment ∧ path? name = some path ∧
    coerce text = .ok value) ∧
  ∀ other ∈ environment.paths, path <+: other → other = path

structure Holds (environment : Environment) (values : Mapping) : Prop where
  keyed : (Value.map values).Keyed Scalar.IsText
  at_iff : ∀ place found, found.isMap = false → ((Value.map values).At place found ↔
    ∃ path value, environment.Sets path value ∧ place = keysOf path ∧ found = .scalar value)
  places : ∀ place found, place ≠ [] → (Value.map values).At place found →
    ∃ path ∈ environment.paths, place <+: keysOf path

namespace IsPlain

variable (plain : environment.IsPlain)

include plain

theorem exists_setting (member : path ∈ environment.paths) :
    ∃ value, (path, value) ∈ settings environment.own := by
  obtain ⟨name, text, member, spelled⟩ := mem_paths_iff.1 member
  obtain ⟨value, coerced⟩ := plain.coerces name text member
  exact ⟨value, mem_settings_iff.2 ⟨name, text, mem_own_iff.2 member, spelled, coerced⟩⟩

theorem exists_sets (member : path ∈ environment.paths) :
    ∃ other value, environment.Sets other value ∧ path <+: other := by
  -- The longest of the paths that go on from this one.
  let longer := environment.paths.filter fun other => decide (path <+: other)
  cases last : longer.argmax List.length with
  | none =>
    have none := List.argmax_eq_none.1 last
    have there : path ∈ longer := by simp [longer, member]
    rw [none] at there
    cases there
  | some other =>
    have there : other ∈ longer := List.argmax_mem last
    obtain ⟨among, part⟩ : other ∈ environment.paths ∧ path <+: other := by
      simpa [longer] using there
    obtain ⟨value, set⟩ := plain.exists_setting among
    obtain ⟨name, text, member, spelled, coerced⟩ := mem_settings_iff.1 set
    refine ⟨other, value, ⟨⟨name, text, mem_own_iff.1 member, spelled, coerced⟩, ?_⟩, part⟩
    intro further among' part'
    have inside : further ∈ longer := by simp [longer, among', part.trans part']
    exact (part'.eq_of_length_le (List.le_of_mem_argmax inside last)).symm

theorem sets_iff {value : Scalar} : environment.Sets path value ↔
    ∃ earlier later, settings environment.own = earlier ++ (path, value) :: later ∧
      ∀ setting ∈ later, Apart (keysOf path) (keysOf setting.1) := by
  have ordered := plain.pairwise_settings
  constructor
  next =>
    rintro ⟨⟨name, text, member, spelled, coerced⟩, last⟩
    have set := mem_settings_iff.2 ⟨name, text, mem_own_iff.2 member, spelled, coerced⟩
    obtain ⟨earlier, later, split⟩ := List.append_of_mem set
    refine ⟨earlier, later, split, fun setting among => ?_⟩
    rw [split] at ordered
    have back := (List.pairwise_cons.1 (List.pairwise_append.1 ordered).2.1).1 setting among
    refine ⟨fun part => ?_, back⟩
    have set' : setting ∈ settings environment.own := by simp [split, among]
    have further := last setting.1 (mem_paths_of_settings set') (keysOf_prefix_iff.1 part)
    rw [further] at back
    exact back (List.prefix_refl _)
  next =>
    rintro ⟨earlier, later, split, apart⟩
    have set : (path, value) ∈ settings environment.own := by simp [split]
    obtain ⟨name, text, member, spelled, coerced⟩ := mem_settings_iff.1 set
    refine ⟨⟨name, text, mem_own_iff.1 member, spelled, coerced⟩, fun other among part => ?_⟩
    obtain ⟨value', set'⟩ := plain.exists_setting among
    rw [split] at set' ordered
    rcases List.mem_append.1 set' with early | late
    next =>
      have back := (List.pairwise_append.1 ordered).2.2 _ early _ List.mem_cons_self
      exact absurd (keysOf_prefix_iff.2 part) back
    next =>
      rcases List.mem_cons.1 late with same | late
      next => exact (Prod.mk.inj same).1
      next => exact absurd (keysOf_prefix_iff.2 part) (apart _ late).1

theorem overrides_eq :
    environment.overrides.2 = .ok (writeAll [] (settings environment.own)) :=
  overrideAll_eq [] fun name text member _ => plain.coerces name text (mem_own_iff.1 member)

theorem exists_overrides : ∃ values, environment.overrides.2 = .ok values ∧
    environment.Holds values := by
  have inside : ∀ setting ∈ settings environment.own, setting.1 ≠ [] := by
    intro setting member
    obtain ⟨name, text, -, spelled, -⟩ := mem_settings_iff.1 member
    exact ne_nil_of_path? spelled
  refine ⟨writeAll [] (settings environment.own), plain.overrides_eq,
    keyed_writeAll Value.keyed_empty (fun name => ⟨name, rfl⟩) _, ?_, ?_⟩
  next =>
    intro place found isLeaf
    have nothing : ¬ (Value.map []).At place found := by
      intro stands
      obtain ⟨key, rest, rfl⟩ := List.exists_cons_of_ne_nil (Value.ne_nil_of_leaf stands isLeaf)
      exact Value.not_at_empty stands
    rw [at_writeAll_iff Value.keyed_empty inside isLeaf]
    simp only [nothing, and_false, or_false, plain.sets_iff]
    constructor
    next =>
      rintro ⟨earlier, path, value, later, split, rfl, rfl, apart⟩
      exact ⟨path, value, ⟨earlier, later, split, apart⟩, rfl, rfl⟩
    next =>
      rintro ⟨path, value, ⟨earlier, later, split, apart⟩, rfl, rfl⟩
      exact ⟨earlier, path, value, later, split, rfl, rfl, apart⟩
  next =>
    intro place found within stands
    rcases exists_at_of_writeAll Value.keyed_empty stands with ⟨setting, member, part⟩ | ⟨other, stands⟩
    next => exact ⟨setting.1, mem_paths_of_settings member, part⟩
    next =>
      obtain ⟨key, rest, rfl⟩ := List.exists_cons_of_ne_nil within
      exact absurd stands Value.not_at_empty

end IsPlain

theorem Holds.silent_iff (holds : environment.Holds values) (plain : environment.IsPlain)
    (inside : place ≠ []) : (Value.map values).Silent place ↔
      ∀ path value, environment.Sets path value → Apart place (keysOf path) := by
  constructor
  next =>
    intro silent path value sets
    have stands := (holds.at_iff _ _ rfl).2 ⟨path, value, sets, rfl, rfl⟩
    constructor
    next =>
      intro part
      obtain ⟨other, before⟩ := Value.exists_at_of_prefix stands part
      exact silent.missing other before
    next =>
      intro part
      by_cases same : keysOf path = place
      next => exact silent.missing _ (same ▸ stands)
      next => cases silent.open_way _ part same _ stands
  next =>
    intro apart
    constructor
    next =>
      intro found stands
      obtain ⟨path, member, part⟩ := holds.places place found inside stands
      obtain ⟨other, value, sets, further⟩ := plain.exists_sets member
      exact (apart other value sets).1 (part.trans (keysOf_prefix_iff.2 further))
    next =>
      intro front part _ found stands
      by_contra isLeaf
      rw [Bool.not_eq_true] at isLeaf
      obtain ⟨path, value, sets, rfl, rfl⟩ := (holds.at_iff front found isLeaf).1 stands
      exact (apart path value sets).2 part

end Names

end Environment
end Inlay
