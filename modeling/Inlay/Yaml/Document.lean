import Inlay.Yaml.Node
import Inlay.Yaml.Token

set_option autoImplicit false

namespace Inlay.Yaml

structure Properties where
  anchor? : Option Text := none
  tag? : Option WrittenTag := none
  deriving Repr, DecidableEq

def Properties.isEmpty (properties : Properties) : Bool :=
  properties.anchor?.isNone && properties.tag?.isNone

inductive Frame
  | root
  | blockSequence (id : NodeId) (items : List NodeId)
  | bareSequence (id : NodeId) (items : List NodeId)
  | blockMapping (id : NodeId) (entries : List (NodeId × NodeId)) (key? : Option NodeId)
  | flowSequence (id : NodeId) (items : List NodeId)
  | flowPair (key? : Option NodeId)
  | flowMapping (id : NodeId) (entries : List (NodeId × NodeId)) (key? : Option NodeId)
  | flowMappingKey (id : NodeId) (entries : List (NodeId × NodeId))

inductive Expected
  | node (properties : Properties) (mayBeMissing : Bool)
  | entry
  | next
  | nothing

structure Draft where
  graph : Graph := {}
  handles : List (Text × Text) := []
  hasVersion : Bool := false
  hasDirective : Bool := false
  anchors : List (Text × NodeId) := []
  frames : List Frame := [.root]
  expected : Expected := .entry
  root? : Option NodeId := none

namespace Draft

def malformed {A : Type} : Except Fault A := .error .malformed

def expect (draft : Draft) (frames : List Frame) (expected : Expected) : Draft :=
  { draft with frames, expected }

def expectNode (draft : Draft) (frames : List Frame) : Draft :=
  draft.expect frames (.node {} true)

def add (draft : Draft) (node : Node) : Draft × NodeId :=
  let (graph, id) := draft.graph.add node
  ({ draft with graph }, id)

def place (draft : Draft) (id : NodeId) : List Frame → Draft
  | [] => draft
  | .root :: frames => { draft.expect (.root :: frames) .next with root? := some id }
  | .blockSequence parent items :: frames =>
    draft.expect (.blockSequence parent (id :: items) :: frames) .next
  | .bareSequence parent items :: frames =>
    draft.expect (.bareSequence parent (id :: items) :: frames) .next
  | .blockMapping parent entries none :: frames =>
    draft.expect (.blockMapping parent entries (some id) :: frames) .next
  | .blockMapping parent entries (some key) :: frames =>
    draft.expect (.blockMapping parent ((key, id) :: entries) none :: frames) .next
  | .flowSequence parent items :: frames =>
    draft.expect (.flowSequence parent (id :: items) :: frames) .next
  | .flowPair none :: frames => draft.expect (.flowPair (some id) :: frames) .next
  | .flowPair (some key) :: frames =>
    let (draft, pair) := draft.add (.mapping .mapping [(key, id)])
    place draft pair frames
  | .flowMapping parent entries none :: frames =>
    draft.expect (.flowMapping parent entries (some id) :: frames) .next
  | .flowMapping parent entries (some key) :: frames =>
    draft.expect (.flowMapping parent ((key, id) :: entries) none :: frames) .next
  | .flowMappingKey parent entries :: frames =>
    let (draft, missing) := draft.add .empty
    draft.expect (.flowMapping parent ((id, missing) :: entries) none :: frames) .next

def tagName? (draft : Draft) (tag : WrittenTag) : Option Text :=
  match tag.handle? with
  | none => some tag.name
  | some handle =>
    let known := draft.handles ++ [(['!'], ['!']), (['!', '!'], Tag.namespaceUri)]
    (known.lookup handle).map (· ++ tag.name)

def tagBefore? (draft : Draft) (properties : Properties) : Option Text :=
  match properties.tag? with
  | none => some []
  | some tag => draft.tagName? tag

def begin (draft : Draft) (properties : Properties) (tag : Tag) (node : Tag → Node) :
    Except Fault (Draft × NodeId) := do
  let some name := draft.tagBefore? properties | malformed
  let tag := if name = [] ∨ name = WrittenTag.bare.name then tag else Tag.ofUri name
  let (draft, id) := draft.add (node tag)
  match properties.anchor? with
  | none => return (draft, id)
  | some anchor =>
    if (draft.anchors.lookup anchor).isSome then malformed
    else return ({ draft with anchors := (anchor, id) :: draft.anchors }, id)

def placeScalar (draft : Draft) (properties : Properties) (plain : Bool) (text : Text) :
    Except Fault Draft := do
  let isBare := draft.tagBefore? properties == some WrittenTag.bare.name
  let kind := if plain || isBare then Tag.ofPlain text else .text
  let (draft, id) ← draft.begin properties kind fun tag => .scalar tag text
  return draft.place id draft.frames

def nestingLimit : Nat := 490

def openCollection (draft : Draft) (properties : Properties) (tag : Tag) (node : Tag → Node)
    (frame : NodeId → Frame) (expected : Expected) : Except Fault Draft := do
  if nestingLimit < draft.frames.length then throw .tooDeep
  let (draft, id) ← draft.begin properties tag node
  return draft.expect (frame id :: draft.frames) expected

def openSequence (draft : Draft) (properties : Properties) (frame : NodeId → List NodeId → Frame)
    (expected : Expected) : Except Fault Draft :=
  draft.openCollection properties .sequence (Node.sequence · []) (frame · []) expected

def openMapping (draft : Draft) (properties : Properties)
    (frame : NodeId → List (NodeId × NodeId) → Option NodeId → Frame) (expected : Expected) :
    Except Fault Draft :=
  draft.openCollection properties .mapping (Node.mapping · []) (frame · [] none) expected

def closeSequence (draft : Draft) (id : NodeId) (items : List NodeId) (frames : List Frame) :
    Draft :=
  { draft with graph := draft.graph.setItems id items.reverse }.place id frames

def closeMapping (draft : Draft) (id : NodeId) (entries : List (NodeId × NodeId))
    (frames : List Frame) : Draft :=
  { draft with graph := draft.graph.setEntries id entries.reverse }.place id frames

def emptyEntry (draft : Draft) (key : NodeId) : Draft × NodeId × NodeId :=
  let (draft, missing) := draft.add .empty
  (draft, key, missing)

def takeInBlockMapping (draft : Draft) (token : Token) (id : NodeId)
    (entries : List (NodeId × NodeId)) (key? : Option NodeId) (frames : List Frame) :
    Except Fault Draft :=
  match key?, token with
  | some key, .value => .ok (draft.expectNode (.blockMapping id entries (some key) :: frames))
  | some key, .key =>
    let (draft, entry) := draft.emptyEntry key
    .ok (draft.expectNode (.blockMapping id (entry :: entries) none :: frames))
  | some key, .blockEnd =>
    let (draft, entry) := draft.emptyEntry key
    .ok (draft.closeMapping id (entry :: entries) frames)
  | none, .key => .ok (draft.expectNode (.blockMapping id entries none :: frames))
  | none, .blockEnd => .ok (draft.closeMapping id entries frames)
  | _, _ => malformed

def takeInFlowSequence (draft : Draft) (token : Token) (id : NodeId) (items : List NodeId)
    (frames : List Frame) : Except Fault Draft :=
  match token with
  | .separator => .ok (draft.expect (.flowSequence id items :: frames) .entry)
  | .flowSequenceEnd => .ok (draft.closeSequence id items frames)
  | _ => malformed

def takeInFlowMapping (draft : Draft) (token : Token) (id : NodeId)
    (entries : List (NodeId × NodeId)) (frames : List Frame) : Except Fault Draft :=
  match token with
  | .separator => .ok (draft.expect (.flowMapping id entries none :: frames) .entry)
  | .flowMappingEnd => .ok (draft.closeMapping id entries frames)
  | _ => malformed

def takeDirective (draft : Draft) (directive : Directive) : Except Fault Draft :=
  let draft := { draft with hasDirective := true }
  match directive with
  | .version major =>
    if draft.hasVersion || major != 1 then malformed else .ok { draft with hasVersion := true }
  | .handle handle uri =>
    if (draft.handles.lookup handle).isSome then malformed
    else .ok { draft with handles := (handle, uri) :: draft.handles }
  | .other => .ok draft

def takeBehind (draft : Draft) (token : Token) (frames : List Frame) : Except Fault Draft :=
  let draft := { draft.expect frames .nothing with handles := [], hasVersion := false }
  match token with
  | .directive directive => draft.takeDirective directive
  | .documentEnd => .ok draft
  | _ => malformed

def takeNext (draft : Draft) (token : Token) : List Frame → Except Fault Draft
  | .root :: frames => draft.takeBehind token (.root :: frames)
  | .blockSequence id items :: frames =>
    match token with
    | .item => .ok (draft.expectNode (.blockSequence id items :: frames))
    | .blockEnd => .ok (draft.closeSequence id items frames)
    | _ => malformed
  | .bareSequence id items :: frames =>
    match token with
    | .item => .ok (draft.expectNode (.bareSequence id items :: frames))
    | _ =>
      let draft := draft.closeSequence id items frames
      match draft.frames with
      | .blockMapping outer entries key? :: frames =>
        draft.takeInBlockMapping token outer entries key? frames
      | _ => malformed
  | .blockMapping id entries key? :: frames =>
    draft.takeInBlockMapping token id entries key? frames
  | .flowSequence id items :: frames =>
    draft.takeInFlowSequence token id items frames
  | .flowPair (some key) :: .flowSequence id items :: frames =>
    match token with
    | .value => .ok (draft.expectNode (.flowPair (some key) :: .flowSequence id items :: frames))
    | _ =>
      let (draft, entry) := draft.emptyEntry key
      let (draft, pair) := draft.add (.mapping .mapping [entry])
      draft.takeInFlowSequence token id (pair :: items) frames
  | .flowMapping id entries (some key) :: frames =>
    match token with
    | .value => .ok (draft.expectNode (.flowMapping id entries (some key) :: frames))
    | _ =>
      let (draft, entry) := draft.emptyEntry key
      draft.takeInFlowMapping token id (entry :: entries) frames
  | .flowMapping id entries none :: frames =>
    draft.takeInFlowMapping token id entries frames
  | _ => malformed

def takeMissing (draft : Draft) (token : Token) (properties : Properties) (mayBeMissing : Bool) :
    Except Fault Draft := do
  if mayBeMissing || !properties.isEmpty then
    let draft ← draft.placeScalar properties true []
    draft.takeNext token draft.frames
  else malformed

def takeTag (draft : Draft) (tag : WrittenTag) (properties : Properties) (mayBeMissing : Bool) :
    Except Fault Draft :=
  if properties.tag?.isSome || (properties.anchor?.isSome && (draft.tagName? tag).isNone) then
    malformed
  else
    .ok (draft.expect draft.frames (.node { properties with tag? := some tag } mayBeMissing))

def takeNode (draft : Draft) (token : Token) (properties : Properties) (mayBeMissing : Bool) :
    Except Fault Draft :=
  if (draft.tagBefore? properties).isNone then malformed
  else
    match token, draft.frames with
    | .reference name, frames =>
      match draft.anchors.lookup name, properties.isEmpty with
      | some id, true => .ok (draft.place id frames)
      | _, _ => malformed
    | .anchor name, frames =>
      if properties.anchor?.isSome then malformed
      else .ok (draft.expect frames (.node { properties with anchor? := some name } mayBeMissing))
    | .tag tag, _ => draft.takeTag tag properties mayBeMissing
    | .scalar plain text, _ => draft.placeScalar properties plain text
    | .flowSequence, _ => draft.openSequence properties .flowSequence .entry
    | .flowMapping, _ => draft.openMapping properties .flowMapping .entry
    | .blockSequence, _ => draft.openSequence properties .blockSequence .next
    | .blockMapping, _ => draft.openMapping properties .blockMapping .next
    | .item, .blockMapping _ _ _ :: _ =>
      draft.openSequence properties .bareSequence (.node {} true)
    | token, _ => draft.takeMissing token properties mayBeMissing

def takeEntry (draft : Draft) (token : Token) : Except Fault Draft :=
  match draft.frames, token with
  | .root :: _, .directive directive => draft.takeDirective directive
  | .root :: frames, .documentStart =>
    .ok { draft.expectNode (.root :: frames) with hasDirective := false }
  | .root :: _, token => if draft.hasDirective then malformed else draft.takeNode token {} false
  | .flowSequence id items :: frames, .key =>
    .ok (draft.expectNode (.flowPair none :: .flowSequence id items :: frames))
  | .flowSequence id items :: frames, .flowSequenceEnd =>
    .ok (draft.closeSequence id items frames)
  | .flowMapping id entries key? :: frames, .key =>
    .ok (draft.expectNode (.flowMapping id entries key? :: frames))
  | .flowMapping id entries _ :: frames, .flowMappingEnd =>
    .ok (draft.closeMapping id entries frames)
  | .flowMapping id entries _ :: frames, token =>
    takeNode { draft with frames := .flowMappingKey id entries :: frames } token {} false
  | _, token => draft.takeNode token {} false

def take (draft : Draft) (token : Token) : Except Fault Draft :=
  match token, draft.expected with
  | .fault fault, _ => .error fault
  | token, .node properties mayBeMissing => draft.takeNode token properties mayBeMissing
  | token, .entry => draft.takeEntry token
  | token, .next => draft.takeNext token draft.frames
  | .documentEnd, .nothing => if draft.hasDirective then malformed else .ok draft
  | .directive directive, .nothing => draft.takeDirective directive
  | _, .nothing => malformed

def finish (draft : Draft) : Except Fault (Option (Graph × NodeId)) := do
  let draft ←
    match draft.frames, draft.expected with
    | [.root], .node properties mayBeMissing =>
      if mayBeMissing || !properties.isEmpty then draft.placeScalar properties true []
      else malformed
    | [.root], _ => if draft.hasDirective then malformed else .ok draft
    | _, _ => malformed
  return draft.root?.map fun id => (draft.graph, id)

end Draft

def Graph.ofStream (stream : Stream) : Except Fault (Option (Graph × NodeId)) := do
  (← (Token.ofStream stream).foldlM Draft.take {}).finish

end Inlay.Yaml
