import Inlay.Text.Codec
import Inlay.Value.Basic
import Inlay.Yaml.Document
import Inlay.Yaml.Node
import Inlay.Yaml.Number

set_option autoImplicit false

namespace Inlay.Yaml

open Text

def truth (word : Text) : Except Fault Bool :=
  let small := lower word
  if Tag.oneOf ["yes", "true", "on"] small then .ok true
  else if Tag.oneOf ["no", "false", "off"] small then .ok false
  else .error .badTruth

def momentValue (text : Text) : Except Fault Scalar :=
  match Timestamp.ofText? text with
  | none => .error .badMoment
  | some (.date date _) => if date.isValid then .ok (.date date) else .error .badNumber
  | some (.moment moment) => if moment.isValid then .ok (.moment moment) else .error .badNumber

def bytesValue (text : Text) : Except Fault Scalar :=
  match if text.all (decide <| ·.toNat < 0x80) then Base64.read? text else none with
  | some bytes => .ok (.bytes bytes)
  | none => .error .malformed

inductive Meaning
  | scalar (value : Scalar)
  | list (items : List NodeId)
  | pairs (items : List (NodeId × NodeId))
  | set (members : List Scalar)
  | map (entries : List (Scalar × NodeId))
  deriving Repr

namespace Meaning

def empty? : Tag → Option Meaning
  | .sequence => some (list [])
  | .pairs => some (pairs [])
  | .orderedPairs => some (pairs [])
  | .mapping => some (map [])
  | .set => some (set [])
  | _ => none

def key? : Meaning → Option Scalar
  | scalar value => some value
  | _ => none

end Meaning

namespace Graph

def textOf (graph : Graph) (fuel : Nat) (id : NodeId) : Except Fault Text :=
  match fuel with
  | 0 => .error .tooDeep
  | fuel + 1 =>
    match graph.get id with
    | .scalar _ text => .ok text
    | .sequence _ _ => .error .malformed
    | .mapping _ entries =>
      match entries.find? fun (key, _) => graph.tag key == .valueKey with
      | some (_, value) => graph.textOf fuel value
      | none => .error .malformed

def text (graph : Graph) (id : NodeId) : Except Fault Text :=
  graph.textOf (graph.size + 1) id

def moment (graph : Graph) (id : NodeId) : Except Fault Scalar := do
  let text ← graph.text id
  match graph.get id with
  | .scalar _ _ => momentValue text
  | _ => throw .notText

def scalar (graph : Graph) (id : NodeId) : Except Fault Scalar := do
  match graph.tag id with
  | .null => return (fun _ => Scalar.null) (← graph.text id)
  | .bool => return .bool (← truth (← graph.text id))
  | .int => return .int (← Number.int (← graph.text id))
  | .float => return .float (← Number.double (id + 1) (← graph.text id))
  | .binary => bytesValue (← graph.text id)
  | .timestamp => graph.moment id
  | .text => return .text (← graph.text id)
  | _ => throw .malformed

end Graph

structure Reading where
  graph : Graph
  meanings : Array (Option Meaning)
  waiting : List NodeId := []

namespace Reading

def ofGraph (graph : Graph) : Reading where
  graph := graph
  meanings := Array.replicate graph.size none

def meaning? (reading : Reading) (id : NodeId) : Option Meaning :=
  (reading.meanings[id]?).join

def setMeaning (reading : Reading) (id : NodeId) (meaning : Meaning) : Reading :=
  { reading with meanings := reading.meanings.setIfInBounds id (some meaning) }

def begin (reading : Reading) (id : NodeId) : Except Fault Reading :=
  match reading.meaning? id, Meaning.empty? (reading.graph.tag id) with
  | some _, _ => .ok reading
  | none, some meaning =>
    .ok { reading.setMeaning id meaning with waiting := id :: reading.waiting }
  | none, none => (reading.graph.scalar id).map fun value => reading.setMeaning id (.scalar value)

def beginAll (reading : Reading) (ids : List NodeId) : Except Fault Reading :=
  ids.foldlM begin reading

def beginPairs (reading : Reading) :
    List NodeId → Except Fault (Reading × List (NodeId × NodeId))
  | [] => .ok (reading, [])
  | item :: items =>
    match reading.graph.get item with
    | .mapping _ [(key, value)] => do
      let reading ← reading.beginAll [key, value]
      let (reading, pairs) ← reading.beginPairs items
      return (reading, (key, value) :: pairs)
    | _ => .error .malformed

def beginEntries (reading : Reading) :
    List (NodeId × NodeId) → Except Fault (Reading × List (Scalar × NodeId))
  | [] => .ok (reading, [])
  | (key, value) :: entries => do
    let reading ← reading.begin key
    match (reading.meaning? key).bind Meaning.key? with
    | none => throw .malformed
    | some scalar =>
      let reading ← reading.begin value
      let (reading, found) ← reading.beginEntries entries
      return (reading, (scalar, value) :: found)

def beginMapping (reading : Reading) (id : NodeId) :
    Except Fault (Reading × List (Scalar × NodeId)) := do
  let graph ← reading.graph.resolve id
  { reading with graph }.beginEntries (graph.entries id)

def fill (reading : Reading) (id : NodeId) : Except Fault Reading := do
  match reading.meaning? id, reading.graph.get id with
  | some (.list _), .sequence _ items =>
    return (← reading.beginAll items).setMeaning id (.list items)
  | some (.pairs _), .sequence _ items =>
    let (reading, pairs) ← reading.beginPairs items
    return reading.setMeaning id (.pairs pairs)
  | some (.map _), .mapping _ _ =>
    let (reading, entries) ← reading.beginMapping id
    return reading.setMeaning id (.map entries)
  | some (.set _), .mapping _ _ =>
    let (reading, entries) ← reading.beginMapping id
    return reading.setMeaning id (.set (entries.map (·.1)))
  | _, _ => throw .malformed

def settle (fuel : Nat) (reading : Reading) : Except Fault Reading :=
  match fuel, reading.waiting with
  | 0, _ => .ok reading
  | _, [] => .ok reading
  | fuel + 1, waiting => do
    settle fuel (← waiting.reverse.foldlM fill { reading with waiting := [] })

def ofRoot (graph : Graph) (root : NodeId) : Except Fault Reading := do
  (← (ofGraph graph).begin root).settle graph.size

abbrev Known := Array (Option Value)

def openLevels : Nat := 2

def valueOf (meaning : Meaning) (parts : List Value) : Value :=
  match meaning with
  | .scalar value => .scalar value
  | .list _ => .list parts
  | .pairs _ => .list (pairUp parts)
  | .set members =>
    .set ((Mapping.ofEntries (members.map fun member => (member, Value.null))).map (·.1))
  | .map entries => .map (Mapping.ofEntries ((entries.map (·.1)).zip parts))
where
  pairUp : List Value → List Value
    | first :: second :: rest => .pair first second :: pairUp rest
    | _ => []

def behind (key : Scalar) (paths : List (List Text)) : List (List Text) :=
  paths.filterMap fun path =>
    match path with
    | [] => none
    | first :: rest => if key = .text first then some rest else none

def partsOf (paths : List (List Text)) : Meaning → List (List (List Text) × NodeId)
  | .scalar _ => []
  | .list items => items.map fun item => ([], item)
  | .pairs items => items.flatMap fun (key, value) => [([], key), ([], value)]
  | .set _ => []
  | .map entries => entries.map fun (key, value) => (behind key paths, value)

def isMapLike : Meaning → Bool
  | .map _ => true
  | _ => false

def unfold (reading : Reading) (fuel level : Nat) (paths : List (List Text)) (around : List NodeId)
    (id : NodeId) : StateM Known (Value × Bool) := do
  match ((← get)[id]?).join with
  | some value => return (value, false)
  | none =>
    match fuel, reading.meaning? id with
    | fuel + 1, some meaning =>
      if around.contains id then return (.again (isMapLike meaning), true)
      else
        let level := if isMapLike meaning then level else 0
        let isOpen := decide (0 < level) || isMapLike meaning && paths.any (!·.isEmpty)
        let around := if isOpen then around else id :: around
        let parts ← (partsOf paths meaning).mapM fun (paths, part) =>
          reading.unfold fuel (level - 1) paths around part
        let value := valueOf meaning (parts.map (·.1))
        let isCut := parts.any (·.2)
        modify fun known => if isCut then known else known.setIfInBounds id (some value)
        return (value, isCut)
    | _, _ => return (.null, true)

def value (reading : Reading) (paths : List (List Text)) (id : NodeId) : Value :=
  let size := reading.graph.size
  let known : Known := Array.replicate size none
  let depth := paths.foldl (fun depth path => max depth path.length) openLevels
  ((reading.unfold (size + depth + 1) openLevels paths [] id).run known).1.1

end Reading

def read (stream : Stream) (paths : List (List Text) := []) : Except Fault (Option Value) := do
  match ← Graph.ofStream stream with
  | none => return none
  | some (graph, root) => return some ((← Reading.ofRoot graph root).value paths root)

end Inlay.Yaml
