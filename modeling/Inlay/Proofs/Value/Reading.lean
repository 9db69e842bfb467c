import Inlay.Config.Layers
import Inlay.Proofs.Value.Meaning

set_option autoImplicit false

namespace Inlay

theorem Mapping.keyed_ofEntries {named : Scalar → Prop} {entries : List (Scalar × Value)}
    (keys : ∀ entry ∈ entries, named entry.1) (each : ∀ entry ∈ entries, entry.2.Keyed named) :
    (Value.map (Mapping.ofEntries entries)).Keyed named := by
  have setting (mapping : Mapping) (keyed : (Value.map mapping).Keyed named) :
      (Value.map (entries.foldl (fun mapping entry =>
        Mapping.insert mapping entry.1 entry.2) mapping)).Keyed named := by
    induction entries generalizing mapping with
    | nil => exact keyed
    | cons entry entries ih =>
      obtain ⟨key, value⟩ := entry
      obtain ⟨isNamed, keys⟩ := List.forall_mem_cons.1 keys
      obtain ⟨here, each⟩ := List.forall_mem_cons.1 each
      exact ih keys each _ (keyed.insert isNamed here)
  exact setting [] Value.keyed_empty

namespace Yaml.Reading

variable {named : Scalar → Prop} {known : Known} {meaning : Meaning} {reading : Reading}

def KnownKeyed (named : Scalar → Prop) (known : Known) : Prop :=
  ∀ (id : NodeId) (value : Value), (known[id]?).join = some value → value.Keyed named

theorem keyed_valueOf {parts : List Value}
    (keys : ∀ entries, meaning = .map entries → ∀ entry ∈ entries, named entry.1)
    (each : ∀ part ∈ parts, part.Keyed named) : (valueOf meaning parts).Keyed named := by
  cases meaning with
  | map entries =>
    refine Mapping.keyed_ofEntries (fun entry member => ?_) fun entry member => ?_
    next =>
      obtain ⟨first, among, same⟩ := List.mem_map.1 (List.of_mem_zip member).1
      exact same ▸ keys entries rfl first among
    next => exact each _ (List.of_mem_zip member).2
  | _ => exact .leaf rfl

theorem keyed_mapM {A : Type} {action : A → StateM Known (Value × Bool)}
    (keeps : ∀ item known, KnownKeyed named known →
      KnownKeyed named ((action item).run known).2 ∧ ((action item).run known).1.1.Keyed named)
    (items : List A) (keyed : KnownKeyed named known) :
    KnownKeyed named ((items.mapM action).run known).2 ∧
      ∀ part ∈ ((items.mapM action).run known).1, part.1.Keyed named := by
  induction items generalizing known with
  | nil => exact ⟨keyed, fun part member => absurd member List.not_mem_nil⟩
  | cons item items ih =>
    obtain ⟨first, here⟩ := keeps item known keyed
    obtain ⟨last, each⟩ := ih first
    rw [List.mapM_cons]
    exact ⟨last, List.forall_mem_cons.2 ⟨here, each⟩⟩

theorem KnownKeyed.set {value : Value} (keyed : KnownKeyed named known) (id : NodeId)
    (keyed' : value.Keyed named) : KnownKeyed named (known.setIfInBounds id (some value)) := by
  intro other found there
  rw [Array.getElem?_setIfInBounds] at there
  split at there
  next =>
    split at there
    next => exact Option.some.inj there ▸ keyed'
    next => cases there
  next => exact keyed other found there

def Names (reading : Reading) (named : Scalar → Prop) : Prop :=
  ∀ id entries, reading.meaning? id = some (.map entries) → ∀ entry ∈ entries, named entry.1

theorem Sound.names (sound : reading.Sound) : reading.Names Scalar.IsSound :=
  fun id entries meant => sound id (.map entries) meant

theorem keyed_unfold (names : reading.Names named) (fuel level : Nat) (paths : List (List Text))
    (around : List NodeId) (id : NodeId) (keyed : KnownKeyed named known) :
    let outcome := (reading.unfold fuel level paths around id).run known
    KnownKeyed named outcome.2 ∧ outcome.1.1.Keyed named := by
  -- What is known goes from one part to the next, so the induction is on both at once.
  induction fuel generalizing level paths around id known with
  | zero =>
    unfold Reading.unfold
    simp only [bind, StateT.bind, get, getThe, MonadStateOf.get, StateT.get, pure, StateT.run]
    cases there : (known[id]?).join with
    | some value => exact ⟨keyed, keyed id value there⟩
    | none => exact ⟨keyed, .leaf rfl⟩
  | succ fuel ih =>
    unfold Reading.unfold
    simp only [bind, StateT.bind, get, getThe, MonadStateOf.get, StateT.get, pure, StateT.run]
    cases there : (known[id]?).join with
    | some value => exact ⟨keyed, keyed id value there⟩
    | none =>
      cases meant : reading.meaning? id with
      | none => exact ⟨keyed, .leaf rfl⟩
      | some meaning =>
        dsimp only
        split
        next => exact ⟨keyed, .leaf rfl⟩
        next =>
          have taken (level : Nat) (around : List NodeId) :=
            @keyed_mapM named known _ (fun part => reading.unfold fuel level part.1 around part.2)
              (fun part _ keyed => ih level part.1 around part.2 keyed) (partsOf paths meaning) keyed
          obtain ⟨keyed', each⟩ := taken _ _
          have keys (entries : List (Scalar × NodeId)) (same : meaning = .map entries) :=
            names id entries (same ▸ meant)
          have whole := keyed_valueOf keys (List.forall_mem_map.2 each)
          have either {kept put : Known} (isCut : Bool) (keyed : KnownKeyed named kept)
              (keyed' : KnownKeyed named put) : KnownKeyed named (if isCut then kept else put) := by
            cases isCut <;> assumption
          exact ⟨either _ keyed' (keyed'.set id whole), whole⟩

theorem keyed_value (names : reading.Names named) (paths : List (List Text)) (id : NodeId) :
    (reading.value paths id).Keyed named := by
  refine (keyed_unfold names _ _ paths [] id ?_).2
  intro id value known
  rw [Array.getElem?_replicate] at known
  split at known <;> cases known

end Yaml.Reading

theorem Yaml.keyed_read {stream : Stream} {paths : List (List Text)} {value : Value}
    (found : Yaml.read stream paths = .ok (some value)) : value.Keyed Scalar.IsSound := by
  unfold Yaml.read at found
  simp only [bind, Except.bind] at found
  cases opened : Graph.ofStream stream with
  | error fault => rw [opened] at found; cases found
  | ok root? =>
    rw [opened] at found
    cases root? with
    | none => cases found
    | some root =>
      obtain ⟨graph, root⟩ := root
      dsimp only at found
      cases meant : Reading.ofRoot graph root with
      | error fault => rw [meant] at found; cases found
      | ok reading =>
        rw [meant] at found
        cases found
        exact Reading.keyed_value (Reading.sound_ofRoot meant).names paths root

namespace Source

variable {workspace : Workspace} {path : Text} {other value : Value} {paths : List (List Text)}

theorem keyed_read (found : Source.read workspace path paths = .ok (some value)) :
    value.Keyed Scalar.IsSound := by
  unfold Source.read at found
  split at found
  next => cases found
  next bytes _ =>
    unfold ofBytes at found
    split at found
    next => cases found
    next => cases found
    next value? read =>
      cases found
      exact Yaml.keyed_read read

theorem keyed_readOr (keyed : other.Keyed Scalar.IsSound)
    (found : Source.readOr workspace path other paths = .ok value) : value.Keyed Scalar.IsSound := by
  unfold Source.readOr at found
  cases read : Source.read workspace path paths with
  | error fault => rw [read] at found; cases found
  | ok value? =>
    rw [read] at found
    cases value? with
    | none => cases found; exact keyed
    | some value =>
      have whole := keyed_read read
      match value with
      | .scalar .null => cases found; exact keyed
      | .scalar (.bool _) | .scalar (.int _) | .scalar (.float _) | .scalar (.text _)
      | .scalar (.date _) | .scalar (.moment _) | .scalar (.bytes _)
      | .list _ | .pair _ _ | .set _ | .map _ | .again _ => cases found; exact whole

end Source

theorem Config.sound_project {workspace : Workspace} {root : Text} {paths : List (List Text)}
    {journal : Journal} {project : Mapping}
    (found : Config.project workspace root paths = (journal, .ok project)) :
    (Value.map project).Keyed Scalar.IsSound := by
  unfold Config.project at found
  split at found
  next => cases found
  next => cases found; exact Value.keyed_empty
  next path _ =>
    split at found
    next => cases found
    next read => cases found; exact Source.keyed_readOr Value.keyed_empty read
    next => cases found

theorem Config.keyed_project {workspace : Workspace} {root : Text} {paths : List (List Text)}
    {journal : Journal} {project : Mapping}
    (found : Config.project workspace root paths = (journal, .ok project)) :
    (Value.map project).Keyed fun _ => True :=
  (Config.sound_project found).mono fun _ _ => trivial

end Inlay
