import Inlay.Config.Layers
import Inlay.Proofs.Config.Overrides
import Inlay.Proofs.Value.Reading

set_option autoImplicit false

namespace Inlay

open Text

namespace Environment

def Leaves (environment : Environment) (place : List Scalar) : Prop :=
  ∀ path ∈ environment.paths, Apart (keysOf path) place

def isMalformed (name : Text) : Bool :=
  match after? mark name with
  | some rest => (path? rest).isNone
  | none => false

def wellFormed (environment : Environment) : Environment :=
  environment.filter fun (name, _) => !isMalformed name

variable {environment : Environment}

theorem IsPlain.wellFormed (plain : environment.IsPlain) : environment.wellFormed.IsPlain where
  distinct := plain.distinct.sublist (List.filter_sublist.map _)
  named name value member := plain.named name value (List.mem_of_mem_filter member)
  coerces name value member := plain.coerces name value (List.mem_of_mem_filter member)

theorem IsPlain.own_wellFormed (plain : environment.IsPlain) :
    environment.wellFormed.own = environment.own.filter fun (name, _) => (path? name).isSome := by
  refine List.Perm.eq_of_pairwise ?_ plain.wellFormed.pairwise_own (plain.pairwise_own.filter _) ?_
  next =>
    rintro first second - - ⟨before, different⟩ ⟨after, -⟩
    exact absurd (Text.le_antisymm before after) different
  next =>
    refine (List.mergeSort_perm _ _).trans (.trans ?_ ((List.mergeSort_perm _ _).symm.filter _))
    rw [List.filter_filterMap, Environment.wellFormed, List.filterMap_filter]
    refine .of_eq (congrArg (List.filterMap · environment) (funext fun binding => ?_))
    obtain ⟨name, value⟩ := binding
    cases cut : after? mark name with
    | none => simp [isMalformed, cut]
    | some rest => cases spelled : path? rest <;> simp [isMalformed, cut, spelled, Option.filter_some]

theorem IsPlain.settings_wellFormed (plain : environment.IsPlain) :
    settings environment.wellFormed.own = settings environment.own := by
  rw [plain.own_wellFormed, settings, List.filterMap_filter, settings]
  refine congrArg (List.filterMap · _) (funext fun binding => ?_)
  obtain ⟨name, value⟩ := binding
  cases spelled : path? name <;> simp [spelled]

theorem IsPlain.paths_wellFormed (plain : environment.IsPlain) :
    environment.wellFormed.paths = environment.paths := by
  rw [paths, plain.own_wellFormed, List.filterMap_filter, paths]
  refine congrArg (List.filterMap · _) (funext fun binding => ?_)
  obtain ⟨name, value⟩ := binding
  cases spelled : path? name <;> simp [spelled]

end Environment

namespace Config

variable {config project : Mapping} {place : List Scalar} {found : Value} {named : Scalar → Prop}

section Level

def levelPath : List Text := ["logging", "level"]

def raised (place : List Scalar) : Value → Value
  | .scalar (.text text) => .scalar (.text (if place = keysOf levelPath then upper text else text))
  | value => value

theorem raised_of_ne (elsewhere : place ≠ keysOf levelPath) (value : Value) :
    raised place value = value := by
  unfold raised
  split
  next => rw [if_neg elsewhere]
  next => rfl

theorem at_levelPath_iff (keyed : (Value.map config).Keyed named) :
    (Value.map config).At (keysOf levelPath) found ↔
      ∃ logging, config.get? "logging" = some (.map logging) ∧
        Mapping.get? logging "level" = some found := by
  rw [keysOf, levelPath, List.map_cons, Value.at_text_iff keyed.of_map.1]
  constructor
  next =>
    rintro ⟨inner, there, stands⟩
    obtain ⟨logging, rfl⟩ := Value.exists_map_of_at stands
    obtain ⟨other, member, -⟩ := Mapping.mem_of_get? there
    obtain ⟨level, there', rfl⟩ := (Value.at_text_iff (keyed.of_map.2.2 _ member).of_map.1).1 stands
    exact ⟨logging, there, there'⟩
  next =>
    rintro ⟨logging, there, there'⟩
    obtain ⟨other, member, -⟩ := Mapping.mem_of_get? there
    exact ⟨_, there, (Value.at_text_iff (keyed.of_map.2.2 _ member).of_map.1).2 ⟨found, there', rfl⟩⟩

theorem raiseLevel_cases (keyed : (Value.map config).Keyed named) :
    (∃ level, (Value.map config).At (keysOf levelPath) (.scalar (.text level)) ∧
      raiseLevel config = Environment.setAt config levelPath (.scalar (.text (upper level)))) ∨
    (∀ level, ¬ (Value.map config).At (keysOf levelPath) (.scalar (.text level))) ∧
      raiseLevel config = config := by
  simp only [at_levelPath_iff keyed]
  unfold raiseLevel
  split
  next logging there =>
    split
    next level there' =>
      refine .inl ⟨level, ⟨logging, there, there'⟩, ?_⟩
      have under : Environment.under config "logging" = logging := by
        unfold Environment.under
        rw [there]
        rfl
      rw [levelPath, Environment.setAt_cons, under]
      rfl
    next other =>
      refine .inr ⟨?_, rfl⟩
      rintro level ⟨logging', there', there''⟩
      cases there.symm.trans there'
      exact other level there''
  next other =>
    refine .inr ⟨?_, rfl⟩
    rintro level ⟨logging, there, -⟩
    exact other logging there

theorem keyed_raiseLevel (keyed : (Value.map config).Keyed fun _ => True) :
    (Value.map (raiseLevel config)).Keyed fun _ => True := by
  rcases raiseLevel_cases keyed with ⟨level, -, same⟩ | ⟨-, same⟩
  next =>
    rw [same]
    exact Environment.keyed_setAt keyed (fun _ => trivial) _ _
  next => rwa [same]

theorem at_raiseLevel_iff (keyed : (Value.map config).Keyed named) (isLeaf : found.isMap = false) :
    (Value.map (raiseLevel config)).At place found ↔
      ∃ origin, origin.isMap = false ∧ (Value.map config).At place origin ∧
        found = raised place origin := by
  rcases raiseLevel_cases keyed with ⟨level, stands, same⟩ | ⟨missing, same⟩
  next =>
    rw [same, Environment.at_setAt_iff keyed (by simp [levelPath]) isLeaf]
    constructor
    next =>
      rintro (⟨rfl, rfl⟩ | ⟨apart, stands'⟩)
      next => exact ⟨_, rfl, stands, by simp [raised]⟩
      next =>
        refine ⟨found, isLeaf, stands', (raised_of_ne ?_ found).symm⟩
        rintro rfl
        exact apart.1 (List.prefix_refl _)
    next =>
      rintro ⟨origin, isLeaf', stands', rfl⟩
      by_cases here : place = keysOf levelPath
      next =>
        subst here
        obtain rfl := keyed.at_unique stands' stands
        exact .inl ⟨rfl, by simp [raised]⟩
      next =>
        rw [raised_of_ne here]
        refine .inr ⟨⟨fun part => here ?_, fun part => here ?_⟩, stands'⟩
        next => exact keyed.eq_of_prefix stands' isLeaf' stands part
        next => exact (keyed.eq_of_prefix stands rfl stands' part).symm
  next =>
    rw [same]
    have kept (origin : Value) (stands : (Value.map config).At place origin) :
        raised place origin = origin := by
      by_cases here : place = keysOf levelPath
      next =>
        subst here
        unfold raised
        split
        next text => exact absurd stands (missing text)
        next => rfl
      next => exact raised_of_ne here origin
    constructor
    next => exact fun stands => ⟨found, isLeaf, stands, (kept found stands).symm⟩
    next =>
      rintro ⟨origin, -, stands, rfl⟩
      rwa [kept origin stands]

theorem exists_at_of_raiseLevel (keyed : (Value.map config).Keyed named)
    (stands : (Value.map (raiseLevel config)).At place found) :
    ∃ other, (Value.map config).At place other := by
  rcases raiseLevel_cases keyed with ⟨level, stands', same⟩ | ⟨-, same⟩
  next =>
    rw [same] at stands
    rcases Environment.exists_at_of_setAt keyed stands with part | before
    next => exact Value.exists_at_of_prefix stands' part
    next => exact before
  next => exact ⟨found, same ▸ stands⟩

theorem raiseLevel_of_capital {level : Text} (keyed : (Value.map config).Keyed named)
    (stands : (Value.map config).At (keysOf levelPath) (.scalar (.text level)))
    (capital : upper level = level) : raiseLevel config = config := by
  obtain ⟨logging, there, there'⟩ := (at_levelPath_iff keyed).1 stands
  have same : Mapping.insert logging "level" (.text level) = logging := Mapping.insert_of_get? there'
  unfold raiseLevel
  rw [there]
  dsimp only
  rw [there']
  dsimp only
  rw [capital, same, Mapping.insert_of_get? there]

theorem at_raiseLevel_of_default (keyed : (Value.map config).Keyed named) (inside : place ≠ [])
    (default : (Value.map defaults).At place found) (stands : (Value.map config).At place found) :
    (Value.map (raiseLevel config)).At place found := by
  obtain ⟨key, rest, rfl⟩ := List.exists_cons_of_ne_nil inside
  have capital (stands' : (Value.map config).At (keysOf levelPath) (.scalar (.text "WARNING"))) :
      (Value.map (raiseLevel config)).At (key :: rest) found := by
    rwa [raiseLevel_of_capital keyed stands' (by decide)]
  obtain ⟨inner, member, default⟩ := default
  rcases List.mem_cons.1 member with first | member
  next =>
    obtain ⟨rfl, rfl⟩ := Prod.mk.inj first
    rcases raiseLevel_cases keyed with ⟨level, -, same⟩ | ⟨-, same⟩
    next =>
      rw [same, levelPath, Environment.setAt_cons, Value.at_insert_iff keyed.of_map.1]
      exact .inr ⟨by decide, stands⟩
    next => rwa [same]
  next =>
    obtain ⟨rfl, rfl⟩ := Prod.mk.inj (List.mem_singleton.1 member)
    cases rest with
    | nil =>
      obtain rfl := Value.at_nil_iff.1 default
      refine capital ((@Value.at_append_iff _ _ _ [.text "logging"]).2 ⟨_, stands, ?_⟩)
      exact ⟨_, List.mem_cons_self, rfl⟩
    | cons key rest =>
      obtain ⟨level, member, default⟩ := default
      obtain ⟨rfl, rfl⟩ := Prod.mk.inj (List.mem_singleton.1 member)
      cases rest with
      | nil =>
        obtain rfl := Value.at_nil_iff.1 default
        exact capital stands
      | cons key rest => exact absurd default (Value.not_at_of_leaf rfl)

end Level

section Layers

variable {environment : Environment}

inductive Origin (environment : Environment) (project : Mapping) (place : List Scalar) : Value → Prop
  | environment {path : List Text} {value : Scalar} (sets : environment.Sets path value)
      (there : place = keysOf path) : Origin environment project place (.scalar value)
  | project {value : Value} (isLeaf : value.isMap = false)
      (apart : ∀ path value, environment.Sets path value → Apart place (keysOf path))
      (stands : (Value.map project).At place value) : Origin environment project place value
  | default {value : Value} (isLeaf : value.isMap = false)
      (apart : ∀ path value, environment.Sets path value → Apart place (keysOf path))
      (silent : (Value.map project).Silent place) (stands : (Value.map defaults).At place value) :
      Origin environment project place value

structure Layered (environment : Environment) (project config : Mapping) : Prop where
  environment_first : ∀ path value, environment.Sets path value → ∀ found,
    (Value.map config).At (keysOf path) found ↔ found = raised (keysOf path) (.scalar value)
  keeps_project : ∀ place value, value.isMap = false → (Value.map project).At place value →
    environment.Leaves place → (Value.map config).At place (raised place value)
  keeps_default : ∀ place value, (Value.map defaults).At place value → environment.Leaves place →
    (Value.map project).Silent place → (Value.map config).At place value
  at_iff : ∀ place found, found.isMap = false → ((Value.map config).At place found ↔
    ∃ origin, Origin environment project place origin ∧ found = raised place origin)
  places : ∀ place found, (Value.map config).At place found →
    (∃ path ∈ environment.paths, place <+: keysOf path) ∨
      ∃ other, (Value.map project).At place other ∨ (Value.map defaults).At place other

theorem Origin.isMap_eq_false (origin : Origin environment project place found) :
    found.isMap = false := by
  cases origin with
  | environment => rfl
  | project isLeaf | default isLeaf => exact isLeaf

theorem isMap_raised (place : List Scalar) (value : Value) :
    (raised place value).isMap = value.isMap := by
  unfold raised
  split <;> rfl

theorem keyed_defaults : (Value.map defaults).Keyed Scalar.IsText := by
  have texts (entries : List (String × String)) (distinct : (textEntries entries).Distinct) :
      (Value.map (textEntries entries)).Keyed Scalar.IsText := by
    refine .map distinct (List.forall_mem_map.2 fun entry _ => ⟨_, rfl⟩)
      (List.forall_mem_map.2 fun entry _ => .leaf rfl)
  refine .map (by unfold Mapping.Distinct; decide) ?_ ?_
  next =>
    intro entry member
    simp only [defaults, List.mem_cons, List.not_mem_nil, or_false] at member
    rcases member with rfl | rfl <;> exact ⟨_, rfl⟩
  next =>
    intro entry member
    simp only [defaults, List.mem_cons, List.not_mem_nil, or_false] at member
    rcases member with rfl | rfl <;> exact texts _ (by unfold Mapping.Distinct; decide)

theorem apart_of_leaves {path : List Text} {value : Scalar} (untouched : environment.Leaves place)
    (sets : environment.Sets path value) : Apart place (keysOf path) := by
  obtain ⟨⟨name, text, member, spelled, -⟩, -⟩ := sets
  have apart := untouched path (Environment.mem_paths_iff.2 ⟨name, text, member, spelled⟩)
  exact ⟨apart.2, apart.1⟩

variable {values : Mapping} (keyed : (Value.map project).Keyed fun _ => True)

include keyed

theorem keyed_base : (Value.map (Mapping.over defaults project)).Keyed fun _ => True :=
  (Value.Keyed.over (fun _ _ isText _ => isText.eq_of_same) keyed_defaults keyed).mono
    fun _ _ => trivial

theorem at_base_iff (isLeaf : found.isMap = false) :
    (Value.map (Mapping.over defaults project)).At place found ↔
      (Value.map project).At place found ∨
        (Value.map defaults).At place found ∧ (Value.map project).Silent place :=
  Value.at_over_iff (fun _ _ isText _ => isText.eq_of_same) keyed_defaults keyed isLeaf

variable (holds : environment.Holds values)

include holds

theorem keyed_whole :
    (Value.map (Mapping.over (Mapping.over defaults project) values)).Keyed fun _ => True :=
  (Value.Keyed.over (fun _ _ _ isText => isText.eq_of_same') (keyed_base keyed) holds.keyed).mono
    fun _ _ => trivial

theorem at_whole_iff (isLeaf : found.isMap = false) :
    (Value.map (Mapping.over (Mapping.over defaults project) values)).At place found ↔
      (Value.map values).At place found ∨
        (Value.map (Mapping.over defaults project)).At place found ∧
          (Value.map values).Silent place :=
  Value.at_over_iff (fun _ _ _ isText => isText.eq_of_same') (keyed_base keyed) holds.keyed isLeaf

variable (plain : environment.IsPlain)

include plain

theorem at_whole_iff_origin : found.isMap = false ∧
    (Value.map (Mapping.over (Mapping.over defaults project) values)).At place found ↔
      Origin environment project place found := by
  have silent_iff (stands : (Value.map (Mapping.over defaults project)).At place found)
      (isLeaf : found.isMap = false) : (Value.map values).Silent place ↔
        ∀ path value, environment.Sets path value → Apart place (keysOf path) :=
    holds.silent_iff plain (Value.ne_nil_of_leaf stands isLeaf)
  constructor
  next =>
    rintro ⟨isLeaf, stands⟩
    rcases (at_whole_iff keyed holds isLeaf).1 stands with stands | ⟨stands, silent⟩
    next =>
      obtain ⟨path, value, sets, rfl, rfl⟩ := (holds.at_iff place found isLeaf).1 stands
      exact .environment sets rfl
    next =>
      have apart := (silent_iff stands isLeaf).1 silent
      rcases (at_base_iff keyed isLeaf).1 stands with stands | ⟨stands, silent⟩
      next => exact .project isLeaf apart stands
      next => exact .default isLeaf apart silent stands
  next =>
    intro origin
    have isLeaf := origin.isMap_eq_false
    refine ⟨isLeaf, (at_whole_iff keyed holds isLeaf).2 ?_⟩
    cases origin with
    | environment sets there => exact .inl ((holds.at_iff _ _ rfl).2 ⟨_, _, sets, there, rfl⟩)
    | project _ apart stands =>
      have base := (at_base_iff keyed isLeaf).2 (.inl stands)
      exact .inr ⟨base, (silent_iff base isLeaf).2 apart⟩
    | default _ apart silent stands =>
      have base := (at_base_iff keyed isLeaf).2 (.inr ⟨stands, silent⟩)
      exact .inr ⟨base, (silent_iff base isLeaf).2 apart⟩

theorem layered_raiseLevel :
    Layered environment project (raiseLevel (Mapping.over (Mapping.over defaults project) values)) := by
  have keyedWhole := keyed_whole keyed holds
  have at_iff (place : List Scalar) (found : Value) (isLeaf : found.isMap = false) :
      (Value.map (raiseLevel (Mapping.over (Mapping.over defaults project) values))).At place found ↔
        ∃ origin, Origin environment project place origin ∧ found = raised place origin := by
    rw [at_raiseLevel_iff keyedWhole isLeaf]
    simp only [← and_assoc, at_whole_iff_origin keyed holds plain]
  constructor
  case environment_first =>
    intro path value sets found
    have stands := (at_iff (keysOf path) (raised (keysOf path) (.scalar value))
      (isMap_raised _ _)).2 ⟨_, .environment sets rfl, rfl⟩
    have keyedLast := keyed_raiseLevel keyedWhole
    exact ⟨fun stands' => keyedLast.at_unique stands' stands, fun same => same ▸ stands⟩
  case keeps_project =>
    intro place value isLeaf stands untouched
    refine (at_iff place _ ((isMap_raised _ _).trans isLeaf)).2 ⟨_, .project isLeaf ?_ stands, rfl⟩
    exact fun _ _ => apart_of_leaves untouched
  case keeps_default =>
    intro place value default untouched silent
    have inside : place ≠ [] := by
      rintro rfl
      exact Value.not_silent_nil silent
    have silent' := (holds.silent_iff plain inside).2 fun _ _ => apart_of_leaves untouched
    have base := Value.at_over_of_lower (fun _ _ isText _ => isText.eq_of_same) keyed_defaults keyed
      default silent
    have whole := Value.at_over_of_lower (fun _ _ _ isText => isText.eq_of_same') (keyed_base keyed)
      holds.keyed base silent'
    exact at_raiseLevel_of_default keyedWhole inside default whole
  case at_iff => exact at_iff
  case places =>
    intro place found stands
    obtain ⟨other, before⟩ := exists_at_of_raiseLevel keyedWhole stands
    obtain ⟨other, base | set⟩ := Value.exists_at_of_over
      (fun _ _ _ isText => isText.eq_of_same') (keyed_base keyed) holds.keyed before
    next =>
      obtain ⟨other, layers⟩ := Value.exists_at_of_over
        (fun _ _ isText _ => isText.eq_of_same) keyed_defaults keyed base
      exact .inr ⟨other, layers.symm⟩
    next =>
      by_cases inside : place = []
      next => exact .inr ⟨.map project, .inl (inside ▸ rfl)⟩
      next => exact .inl (holds.places place other inside set)

end Layers

section Loading

variable {workspace : Workspace} {root : Text} {environment : Environment} {journal : Journal}

theorem load_eq {values : Mapping}
    (found : Config.project workspace root environment.paths = (journal, .ok project))
    (read : environment.overrides.2 = .ok values) :
    (Config.load workspace root environment).2 =
      .ok (raiseLevel (Mapping.over (Mapping.over defaults project) values)) := by
  unfold Config.load layered
  rw [found]
  dsimp only
  rw [read]
  rfl

/-- The configuration of a project takes from the environment first, then from the project and then
from the defaults. Variables with malformed names change nothing. -/
theorem load_layered (plain : environment.IsPlain)
    (found : Config.project workspace root environment.paths = (journal, .ok project)) :
    ∃ config, (Config.load workspace root environment).2 = .ok config ∧
      Layered environment project config ∧
      (Config.load workspace root environment.wellFormed).2 = .ok config := by
  obtain ⟨values, read, holds⟩ := plain.exists_overrides
  have read' : environment.wellFormed.overrides.2 = .ok values := by
    rw [plain.wellFormed.overrides_eq, plain.settings_wellFormed, ← plain.overrides_eq, read]
  have found' : Config.project workspace root environment.wellFormed.paths = (journal, .ok project) := by
    rw [plain.paths_wellFormed, found]
  exact ⟨_, load_eq found read, layered_raiseLevel (keyed_project found) holds plain,
    load_eq found' read'⟩

-- A project whose level is in small letters, and variables of which one goes on from another one and
-- one has a malformed name.
def levelledWorkspace : Workspace where
  entries := [(["xblock.yaml"], .file (Utf8.encode "a: {b: 1}\nlogging: {level: debug}\n"))]

def nestedEnvironment : Environment :=
  [("HOME", "/home"), ("XBLOCK_A", "true"), ("XBLOCK_A__C", "2"), ("XBLOCK___B", "x")]

theorem load_layered_of_nested : nestedEnvironment.IsPlain ∧
    ∃ journal project, Config.project levelledWorkspace "/" nestedEnvironment.paths =
      (journal, .ok project) ∧ project.map Prod.fst = [.text "a", .text "logging"] ∧
    ∃ config, (Config.load levelledWorkspace "/" nestedEnvironment).2 = .ok config ∧
      Layered nestedEnvironment project config ∧
      (Config.load levelledWorkspace "/" nestedEnvironment.wellFormed).2 = .ok config := by
  have plain : nestedEnvironment.IsPlain := by decide +kernel
  have keys : (Config.project levelledWorkspace "/" nestedEnvironment.paths).2.toOption.map
      (·.map Prod.fst) = some [.text "a", .text "logging"] := by decide +kernel
  refine ⟨plain, ?_⟩
  generalize found : Config.project levelledWorkspace "/" nestedEnvironment.paths = outcome at keys
  obtain ⟨journal, project? | project⟩ := outcome
  next => cases keys
  next => exact ⟨journal, project, rfl, Option.some.inj keys, load_layered plain found⟩

end Loading

end Config
end Inlay
