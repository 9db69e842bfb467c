import Inlay.Yaml.Character
import Inlay.Yaml.Number

set_option autoImplicit false

namespace Inlay.Yaml

open Text

inductive Tag
  | null
  | bool
  | int
  | float
  | binary
  | timestamp
  | orderedPairs
  | pairs
  | set
  | text
  | sequence
  | mapping
  | mergeKey
  | valueKey
  | unknown
  deriving Repr, DecidableEq

namespace Tag

def namespaceUri : Text :=
  "tag:yaml.org,2002:"

def names : List (String × Tag) :=
  [("null", null), ("bool", bool), ("int", int), ("float", float), ("binary", binary),
   ("timestamp", timestamp), ("omap", orderedPairs), ("pairs", pairs), ("set", set), ("str", text),
   ("seq", sequence), ("map", mapping), ("merge", mergeKey), ("value", valueKey)]

def ofUri (uri : Text) : Tag :=
  match after? namespaceUri uri with
  | some name => ((names.find? fun (known, _) => known.toList == name).map (·.2)).getD unknown
  | none => unknown

def oneOf (words : List String) (text : Text) : Bool :=
  words.any (·.toList == text)

def isTruth (text : Text) : Bool :=
  oneOf ["yes", "Yes", "YES", "no", "No", "NO", "true", "True", "TRUE", "false", "False", "FALSE",
    "on", "On", "ON", "off", "Off", "OFF"] text

def isNull (text : Text) : Bool :=
  oneOf ["", "~", "null", "Null", "NULL"] text

def isDigitOrLow (c : Char) : Bool :=
  isAsciiDigit c || c == '_'

def unsigned : Text → Text
  | [] => []
  | c :: rest => if c = '+' ∨ c = '-' then rest else c :: rest

def isNumeral : Text → Bool
  | [] => false
  | c :: rest => isAsciiDigit c && rest.all isDigitOrLow

def isExponent : Text → Bool
  | [] => true
  | e :: sign :: digits =>
    (e == 'e' || e == 'E') && (sign == '+' || sign == '-') && digits != [] && digits.all isAsciiDigit
  | _ => false

def isSixtieth : Text → Bool
  | [c] => isAsciiDigit c
  | [c, d] => decide ('0' <= c) && decide (c <= '5') && isAsciiDigit d
  | _ => false

def isSexagesimal (isFirst : Text → Bool) (text : Text) : Bool :=
  match splitAt ':' text with
  | first :: second :: more => isFirst first && isSixtieth second && more.all isSixtieth
  | _ => false

def isFraction (least : Nat) : Text → Bool
  | '.' :: rest =>
    decide (least <= (rest.takeWhile isDigitOrLow).length)
      && isExponent (rest.dropWhile isDigitOrLow)
  | _ => false

def isFloat (text : Text) : Bool :=
  let body := unsigned text
  let whole := body.takeWhile isDigitOrLow
  let fraction := body.dropWhile isDigitOrLow
  (isNumeral whole && isFraction 0 fraction)
    || (text.head? == some '.' && (text.drop 1).head?.any isAsciiDigit && isFraction 1 text)
    || (isSexagesimal isNumeral (before '.' body)
      && (match body.dropWhile (· != '.') with
        | '.' :: rest => rest.all isDigitOrLow
        | _ => false))
    || oneOf [".inf", ".Inf", ".INF"] body
    || oneOf [".nan", ".NaN", ".NAN"] text

def isBinaryDigit (c : Char) : Bool :=
  c == '0' || c == '1' || c == '_'

def isOctalDigit (c : Char) : Bool :=
  (decide ('0' <= c) && decide (c <= '7')) || c == '_'

def isHexadecimalDigit (c : Char) : Bool :=
  isAsciiDigit c || (decide ('a' <= c) && decide (c <= 'f'))
    || (decide ('A' <= c) && decide (c <= 'F')) || c == '_'

def isPositive (text : Text) : Bool :=
  isNumeral text && text.head? != some '0'

def isInt (text : Text) : Bool :=
  match unsigned text with
  | ['0'] => true
  | '0' :: 'b' :: digits => digits != [] && digits.all isBinaryDigit
  | '0' :: 'x' :: digits => digits != [] && digits.all isHexadecimalDigit
  | '0' :: digits => digits.all isOctalDigit
  | body => isPositive body || isSexagesimal isPositive body

def forms : List ((Text → Bool) × Tag) :=
  [(isTruth, bool), (isFloat, float), (isInt, int), (oneOf ["<<"], mergeKey), (isNull, null),
   (Timestamp.isPlain, timestamp), (oneOf ["="], valueKey), (oneOf ["!", "&", "*"], unknown)]

def ofPlain (value : Text) : Tag :=
  if value = ['\n'] then text
  else ((forms.find? fun (isForm, _) => isForm (dropLineEnd value)).map (·.2)).getD text

end Tag

abbrev NodeId := Nat

inductive Node
  | scalar (tag : Tag) (text : Text)
  | sequence (tag : Tag) (items : List NodeId)
  | mapping (tag : Tag) (entries : List (NodeId × NodeId))
  deriving Repr, DecidableEq

namespace Node

instance : Inhabited Node := ⟨scalar .null []⟩

def empty : Node := scalar .null []

def tag : Node → Tag
  | scalar tag _ => tag
  | sequence tag _ => tag
  | mapping tag _ => tag

def withTag (tag : Tag) : Node → Node
  | scalar _ text => scalar tag text
  | sequence _ items => sequence tag items
  | mapping _ entries => mapping tag entries

def entries : Node → List (NodeId × NodeId)
  | mapping _ entries => entries
  | _ => []

end Node

structure Graph where
  nodes : Array Node := #[]

namespace Graph

def size (graph : Graph) : Nat :=
  graph.nodes.size

def get (graph : Graph) (id : NodeId) : Node :=
  graph.nodes[id]?.getD .empty

def set (graph : Graph) (id : NodeId) (node : Node) : Graph :=
  ⟨graph.nodes.setIfInBounds id node⟩

def add (graph : Graph) (node : Node) : Graph × NodeId :=
  (⟨graph.nodes.push node⟩, graph.size)

def tag (graph : Graph) (id : NodeId) : Tag :=
  (graph.get id).tag

def entries (graph : Graph) (id : NodeId) : List (NodeId × NodeId) :=
  (graph.get id).entries

def setItems (graph : Graph) (id : NodeId) (items : List NodeId) : Graph :=
  graph.set id (.sequence (graph.tag id) items)

def setEntries (graph : Graph) (id : NodeId) (entries : List (NodeId × NodeId)) : Graph :=
  graph.set id (.mapping (graph.tag id) entries)

def setTag (graph : Graph) (id : NodeId) (tag : Tag) : Graph :=
  graph.set id ((graph.get id).withTag tag)

def cutMerge? (graph : Graph) :
    List (NodeId × NodeId) → Option (List (NodeId × NodeId) × NodeId × List (NodeId × NodeId))
  | [] => none
  | (key, value) :: entries =>
    if graph.tag key = .mergeKey then some ([], value, entries)
    else (graph.cutMerge? entries).map fun (front, found, rest) =>
      ((key, value) :: front, found, rest)

def plainKeys (graph : Graph) (entries : List (NodeId × NodeId)) : Graph :=
  entries.foldl (fun graph (key, _) =>
    if graph.tag key = .valueKey then graph.setTag key .text else graph) graph

def resolveFrom (fuel : Nat) (taken : List (NodeId × NodeId)) (graph : Graph) (id : NodeId) :
    Except Fault Graph :=
  match fuel with
  | 0 => .ok graph
  | fuel + 1 =>
    match graph.cutMerge? (graph.entries id) with
    | none =>
      let entries := graph.entries id
      .ok ((graph.plainKeys entries).setEntries id (taken ++ entries))
    | some (front, value, rest) => do
      let graph := graph.setEntries id (front ++ rest)
      match graph.get value with
      | .mapping _ _ =>
        let graph ← graph.resolveFrom fuel [] value
        graph.resolveFrom fuel (taken ++ graph.entries value) id
      | .sequence _ items =>
        let (graph, found) ← items.foldlM (fun (graph, found) item =>
          match graph.get item with
          | .mapping _ _ => do
            let graph ← graph.resolveFrom fuel [] item
            return (graph, graph.entries item ++ found)
          | _ => throw .malformed) (graph, ([] : List (NodeId × NodeId)))
        graph.resolveFrom fuel (taken ++ found) id
      | .scalar _ _ => throw .malformed

def entryCount (graph : Graph) : Nat :=
  graph.nodes.foldl (fun total node => total + node.entries.length) 0

def resolve (graph : Graph) (id : NodeId) : Except Fault Graph :=
  graph.resolveFrom (graph.entryCount + 1) [] id

end Graph

end Inlay.Yaml
