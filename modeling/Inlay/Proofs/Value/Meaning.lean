import Inlay.Proofs.Value.Keys
import Inlay.Yaml.Meaning

set_option autoImplicit false

namespace Inlay.Yaml

open Text

section Outcome

variable {A B State : Type} {fault : Fault}

theorem bind_eq_ok {action : Except Fault A} {next : A → Except Fault B} {outcome : B}
    (done : action.bind next = .ok outcome) : ∃ value, action = .ok value ∧ next value = .ok outcome := by
  cases action with
  | error fault => cases done
  | ok value => exact ⟨value, rfl, done⟩

theorem foldlM_keeps {Holds : State → Prop} {step : State → A → Except Fault State}
    (keeps : ∀ state item state', Holds state → step state item = .ok state' → Holds state')
    {items : List A} {state state' : State} (holds : Holds state)
    (done : items.foldlM step state = .ok state') : Holds state' := by
  induction items generalizing state with
  | nil => cases done; exact holds
  | cons item items ih =>
    rw [List.foldlM_cons] at done
    obtain ⟨between, first, rest⟩ := bind_eq_ok done
    exact ih (keeps state item between holds first) rest

end Outcome

namespace Number

variable {number total : Double} {weight : Nat} {parts : List Double} {text : Text}

theorem isNormal_addWeighted (normal : total.IsNormal)
    (found : addWeighted total weight parts = .ok number) : number.IsNormal := by
  induction parts generalizing total weight with
  | nil => cases found; exact normal
  | cons part parts ih =>
    unfold addWeighted at found
    split at found
    next => cases found
    next => exact ih (Double.isNormal_add _ _) found

theorem isNormal_read {value? : Option Double} (normal : ∀ value, value? = some value → value.IsNormal)
    (found : read value? = .ok number) : number.IsNormal := by
  cases value? with
  | none => cases found
  | some value => cases found; exact normal _ rfl

theorem isNormal_magnitudeDouble (found : magnitudeDouble text = .ok number) : number.IsNormal := by
  unfold magnitudeDouble at found
  split_ifs at found
  next => cases found; trivial
  next =>
    obtain ⟨parts, -, added⟩ := bind_eq_ok found
    exact isNormal_addWeighted (Double.isNormal_ofRatio _ _ Nat.one_pos) added
  next => exact isNormal_read (fun value there => Decimal.isNormal_double? there) found

theorem isNormal_double {place : Nat} (found : double place text = .ok number) :
    number.IsNormal := by
  obtain ⟨⟨negative, body⟩, -, found⟩ := bind_eq_ok found
  dsimp only at found
  split at found
  next => cases found; trivial
  next =>
    obtain ⟨value, read, found⟩ := bind_eq_ok found
    have normal := isNormal_magnitudeDouble read
    split at found
    next => cases found; trivial
    next =>
      cases found
      split
      next => exact normal.neg
      next => exact normal

end Number

theorem isSound_momentValue {text : Text} {value : Scalar} (found : momentValue text = .ok value) :
    value.IsSound := by
  unfold momentValue at found
  split at found
  next => cases found
  all_goals
    split at found <;> cases found
    trivial

theorem isSound_bytesValue {text : Text} {value : Scalar} (found : bytesValue text = .ok value) :
    value.IsSound := by
  unfold bytesValue at found
  split at found <;> cases found
  trivial

theorem Graph.isSound_scalar {graph : Graph} {id : NodeId} {value : Scalar}
    (found : graph.scalar id = .ok value) : value.IsSound := by
  unfold Graph.scalar at found
  split at found
  case h_1 | h_7 =>
    obtain ⟨text, -, found⟩ := bind_eq_ok found
    cases found
    trivial
  case h_2 | h_3 =>
    obtain ⟨text, -, found⟩ := bind_eq_ok found
    obtain ⟨read, -, found⟩ := bind_eq_ok found
    cases found
    trivial
  case h_4 =>
    obtain ⟨text, -, found⟩ := bind_eq_ok found
    obtain ⟨number, read, found⟩ := bind_eq_ok found
    cases found
    exact Number.isNormal_double read
  case h_5 =>
    obtain ⟨text, -, found⟩ := bind_eq_ok found
    exact isSound_bytesValue found
  case h_6 =>
    obtain ⟨text, -, found⟩ := bind_eq_ok found
    split at found
    next => exact isSound_momentValue found
    next => cases found
  case h_8 => cases found

def Meaning.Sound : Meaning → Prop
  | scalar value => value.IsSound
  | map entries => ∀ entry ∈ entries, entry.1.IsSound
  | _ => True

theorem Meaning.sound_of_empty? {tag : Tag} {meaning : Meaning}
    (found : Meaning.empty? tag = some meaning) : meaning.Sound := by
  unfold Meaning.empty? at found
  split at found <;> cases found
  case h_4 => exact nofun
  all_goals trivial

namespace Reading

def Sound (reading : Reading) : Prop :=
  ∀ id meaning, reading.meaning? id = some meaning → meaning.Sound

variable {reading next : Reading} {id : NodeId} {meaning : Meaning}

theorem sound_ofGraph (graph : Graph) : (ofGraph graph).Sound := by
  intro id meaning found
  simp only [meaning?, ofGraph, Array.getElem?_replicate] at found
  split at found <;> cases found

theorem Sound.setMeaning (sound : reading.Sound) (id : NodeId) (isSound : meaning.Sound) :
    (reading.setMeaning id meaning).Sound := by
  intro other found there
  simp only [meaning?, Reading.setMeaning, Array.getElem?_setIfInBounds] at there
  split at there
  next =>
    split at there
    next => exact Option.some.inj there ▸ isSound
    next => cases there
  next => exact sound other found there

theorem Sound.begin (sound : reading.Sound) (begun : reading.begin id = .ok next) : next.Sound := by
  unfold Reading.begin at begun
  split at begun
  next => cases begun; exact sound
  next meaning _ empty =>
    cases begun
    exact sound.setMeaning id (Meaning.sound_of_empty? empty)
  next =>
    cases found : reading.graph.scalar id with
    | error fault => rw [found] at begun; cases begun
    | ok value =>
      rw [found] at begun
      cases begun
      exact sound.setMeaning id (Graph.isSound_scalar found)

theorem Sound.beginAll {ids : List NodeId} (sound : reading.Sound)
    (begun : reading.beginAll ids = .ok next) : next.Sound :=
  foldlM_keeps (fun _ _ _ sound begun => Sound.begin sound begun) sound begun

theorem Sound.beginPairs {items : List NodeId} {pairs : List (NodeId × NodeId)}
    (sound : reading.Sound) (begun : reading.beginPairs items = .ok (next, pairs)) : next.Sound := by
  induction items generalizing reading pairs with
  | nil => cases begun; exact sound
  | cons item items ih =>
    unfold Reading.beginPairs at begun
    split at begun
    next =>
      obtain ⟨between, first, begun⟩ := bind_eq_ok begun
      obtain ⟨⟨last, others⟩, rest, begun⟩ := bind_eq_ok begun
      cases begun
      exact ih (sound.beginAll first) rest
    next => cases begun

theorem Sound.beginEntries {nodes : List (NodeId × NodeId)} {entries : List (Scalar × NodeId)}
    (sound : reading.Sound) (begun : reading.beginEntries nodes = .ok (next, entries)) :
    next.Sound ∧ ∀ entry ∈ entries, entry.1.IsSound := by
  induction nodes generalizing reading entries with
  | nil => cases begun; exact ⟨sound, nofun⟩
  | cons node nodes ih =>
    obtain ⟨key, value⟩ := node
    obtain ⟨keyed, first, begun⟩ := bind_eq_ok begun
    have keyedSound := sound.begin first
    dsimp only at begun
    split at begun
    next => cases begun
    next scalar named =>
      obtain ⟨between, second, begun⟩ := bind_eq_ok begun
      obtain ⟨⟨last, others⟩, rest, begun⟩ := bind_eq_ok begun
      cases begun
      obtain ⟨lastSound, each⟩ := ih (keyedSound.begin second) rest
      refine ⟨lastSound, List.forall_mem_cons.2 ⟨?_, each⟩⟩
      obtain ⟨meaning, meant, isKey⟩ := Option.bind_eq_some_iff.1 named
      cases meaning <;> cases isKey
      exact keyedSound key _ meant

theorem Sound.beginMapping {entries : List (Scalar × NodeId)} (sound : reading.Sound)
    (begun : reading.beginMapping id = .ok (next, entries)) :
    next.Sound ∧ ∀ entry ∈ entries, entry.1.IsSound := by
  obtain ⟨graph, -, begun⟩ := bind_eq_ok begun
  have resolved : ({ reading with graph } : Reading).Sound := sound
  exact resolved.beginEntries begun

theorem Sound.fill (sound : reading.Sound) (filled : reading.fill id = .ok next) : next.Sound := by
  unfold Reading.fill at filled
  split at filled
  next =>
    obtain ⟨between, begun, filled⟩ := bind_eq_ok filled
    cases filled
    exact (sound.beginAll begun).setMeaning id trivial
  next =>
    obtain ⟨⟨between, pairs⟩, begun, filled⟩ := bind_eq_ok filled
    cases filled
    exact (sound.beginPairs begun).setMeaning id trivial
  next =>
    obtain ⟨⟨between, entries⟩, begun, filled⟩ := bind_eq_ok filled
    cases filled
    obtain ⟨betweenSound, each⟩ := sound.beginMapping begun
    exact betweenSound.setMeaning id each
  next =>
    obtain ⟨⟨between, entries⟩, begun, filled⟩ := bind_eq_ok filled
    cases filled
    exact (sound.beginMapping begun).1.setMeaning id trivial
  next => cases filled

theorem Sound.settle {fuel : Nat} (sound : reading.Sound) (settled : settle fuel reading = .ok next) :
    next.Sound := by
  induction fuel generalizing reading with
  | zero =>
    unfold Reading.settle at settled
    cases settled
    exact sound
  | succ fuel ih =>
    unfold Reading.settle at settled
    split at settled
    next same => cases same
    next => cases settled; exact sound
    next _ _ same _ =>
      obtain rfl := Nat.succ.inj same
      obtain ⟨between, filled, settled⟩ := bind_eq_ok settled
      have emptied : ({ reading with waiting := [] } : Reading).Sound := sound
      have betweenSound := foldlM_keeps (fun _ _ _ sound filled => Sound.fill sound filled) emptied filled
      exact ih betweenSound settled

theorem sound_ofRoot {graph : Graph} {root : NodeId} (meant : ofRoot graph root = .ok reading) :
    reading.Sound := by
  obtain ⟨begun, first, settled⟩ := bind_eq_ok meant
  exact ((sound_ofGraph graph).begin first).settle settled

end Reading

end Inlay.Yaml
