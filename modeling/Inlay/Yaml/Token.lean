import Inlay.Yaml.Character
import Inlay.Yaml.Property
import Inlay.Yaml.Scalar

set_option autoImplicit false

namespace Inlay.Yaml

inductive Token
  | directive (directive : Directive)
  | documentStart
  | documentEnd
  | blockSequence
  | blockMapping
  | blockEnd
  | flowSequence
  | flowMapping
  | flowSequenceEnd
  | flowMappingEnd
  | separator
  | item
  | key
  | value
  | reference (name : Text)
  | anchor (name : Text)
  | tag (tag : WrittenTag)
  | scalar (plain : Bool) (text : Text)
  | fault (fault : Fault)
  deriving Repr, DecidableEq

structure PossibleKey where
  position : Nat
  required : Bool
  index : Nat
  line : Nat
  column : Nat

structure Lexer where
  cursor : Cursor
  beyond? : Option Fault := none
  tokens : List Token := []
  indents : List Nat := []
  depth : Nat := 0
  keys : List (Nat × PossibleKey) := []
  keyAllowed : Bool := true

namespace Lexer

def emit (lexer : Lexer) (token : Token) : Lexer :=
  { lexer with tokens := lexer.tokens ++ [token] }

def insertAt (lexer : Lexer) (position : Nat) (token : Token) : Lexer :=
  { lexer with tokens := lexer.tokens.insertIdx position token }

def moveTo (lexer : Lexer) (rest : Text) : Lexer :=
  { lexer with cursor := lexer.cursor.upTo rest }

def allowKey (lexer : Lexer) (allowed : Bool) : Lexer :=
  { lexer with keyAllowed := allowed }

def inFlow (lexer : Lexer) : Bool :=
  lexer.depth != 0

def leastColumn (lexer : Lexer) : Nat :=
  match lexer.indents with
  | [] => 0
  | indent :: _ => indent + 1

def isStale (lexer : Lexer) (key : PossibleKey) : Bool :=
  key.line != lexer.cursor.line || decide (1024 < lexer.cursor.index - key.index)

def dropStaleKeys (lexer : Lexer) : Except Fault Lexer :=
  if lexer.keys.any fun (_, key) => lexer.isStale key && key.required then .error .malformed
  else .ok { lexer with keys := lexer.keys.filter fun (_, key) => !lexer.isStale key }

def key? (lexer : Lexer) : Option PossibleKey :=
  lexer.keys.lookup lexer.depth

def forgetKey (lexer : Lexer) : Lexer :=
  { lexer with keys := lexer.keys.filter fun (depth, _) => depth != lexer.depth }

def dropKey (lexer : Lexer) : Except Fault Lexer :=
  match lexer.key? with
  | some key => if key.required then .error .malformed else .ok lexer.forgetKey
  | none => .ok lexer

def saveKey (lexer : Lexer) : Except Fault Lexer :=
  if lexer.keyAllowed then do
    let lexer ← lexer.dropKey
    let cursor := lexer.cursor
    let key : PossibleKey :=
      { position := lexer.tokens.length
        required := !lexer.inFlow && lexer.indents.head? == some cursor.column
        index := cursor.index
        line := cursor.line
        column := cursor.column }
    return { lexer with keys := (lexer.depth, key) :: lexer.keys }
  else .ok lexer

def closeBlocks (lexer : Lexer) (ends : Nat → Bool) : Lexer :=
  { lexer with
    tokens := lexer.tokens ++ (lexer.indents.takeWhile ends).map fun _ => Token.blockEnd
    indents := lexer.indents.dropWhile ends }

def unwind (lexer : Lexer) : Lexer :=
  if lexer.inFlow then lexer
  else lexer.closeBlocks fun indent => decide (lexer.cursor.column < indent)

def unwindAll (lexer : Lexer) : Lexer :=
  if lexer.inFlow then lexer else lexer.closeBlocks fun _ => true

def openBlock (lexer : Lexer) (column position : Nat) (token : Token) : Lexer :=
  if lexer.leastColumn <= column then
    { lexer with indents := column :: lexer.indents }.insertAt position token
  else lexer

def openBlockHere (lexer : Lexer) (token : Token) : Except Fault Lexer :=
  if lexer.inFlow then .ok lexer
  else if lexer.keyAllowed then
    .ok (lexer.openBlock lexer.cursor.column lexer.tokens.length token)
  else .error .malformed

def readBetweenDocuments (lexer : Lexer) (token : Token) (rest : Text) : Except Fault Lexer := do
  let lexer ← lexer.unwindAll.dropKey
  return ((lexer.allowKey false).emit token).moveTo rest

def readNode (lexer : Lexer) (token : Token) (rest : Text) : Except Fault Lexer := do
  let lexer ← lexer.saveKey
  return ((lexer.allowKey false).emit token).moveTo rest

def readOpening (lexer : Lexer) (token : Token) (rest : Text) : Except Fault Lexer := do
  let lexer ← lexer.readNode token rest
  return { lexer with depth := lexer.depth + 1, keyAllowed := true }

def readClosing (lexer : Lexer) (token : Token) (rest : Text) : Except Fault Lexer := do
  let lexer ← lexer.dropKey
  return (({ lexer with depth := lexer.depth - 1 }.allowKey false).emit token).moveTo rest

def readSeparator (lexer : Lexer) (rest : Text) : Except Fault Lexer := do
  let lexer ← lexer.dropKey
  return ((lexer.allowKey true).emit .separator).moveTo rest

def readItem (lexer : Lexer) (rest : Text) : Except Fault Lexer := do
  let lexer ← lexer.openBlockHere .blockSequence
  let lexer ← lexer.dropKey
  return ((lexer.allowKey true).emit .item).moveTo rest

def readKey (lexer : Lexer) (rest : Text) : Except Fault Lexer := do
  let lexer ← lexer.openBlockHere .blockMapping
  let lexer ← lexer.dropKey
  return ((lexer.allowKey (!lexer.inFlow)).emit .key).moveTo rest

def readValue (lexer : Lexer) (rest : Text) : Except Fault Lexer :=
  match lexer.key? with
  | some key =>
    let lexer := lexer.forgetKey.insertAt key.position .key
    let lexer :=
      if lexer.inFlow then lexer else lexer.openBlock key.column key.position .blockMapping
    .ok (((lexer.allowKey false).emit .value).moveTo rest)
  | none => do
    let lexer ← lexer.openBlockHere .blockMapping
    return ((lexer.allowKey (!lexer.inFlow)).emit .value).moveTo rest

def isCut (lexer : Lexer) (rest : Text) : Bool :=
  lexer.beyond?.isSome && ((lexer.cursor.rest.reverse.take 3).drop rest.length).any isBreak

def readPlain (lexer : Lexer) : Except Fault Lexer := do
  let scalar :=
    PlainScalar.read lexer.inFlow lexer.leastColumn lexer.cursor.column lexer.cursor.rest
  if lexer.isCut scalar.rest || (lexer.beyond?.isSome && scalar.rest == [':']) then
    throw .unfinished
  let lexer ← lexer.readNode (.scalar true scalar.text) scalar.rest
  return lexer.allowKey scalar.gap.isBroken

def readQuoted (lexer : Lexer) (read : Except Fault (Text × Text)) : Except Fault Lexer := do
  let (text, rest) ← read
  if lexer.isCut rest then throw .unfinished
  lexer.readNode (.scalar false text) rest

def readBlockScalar (lexer : Lexer) (folded : Bool) (rest : Text) : Except Fault Lexer := do
  let lexer ← lexer.dropKey
  match blockScalar? folded (max 1 lexer.leastColumn) rest with
  | some (text, rest) => return ((lexer.allowKey true).emit (.scalar false text)).moveTo rest
  | none => throw .malformed

def readProperty {A : Type} (lexer : Lexer) (token : A → Token)
    (read : Except Fault (A × Text)) : Except Fault Lexer := do
  let (property, rest) ← read
  lexer.readNode (token property) rest

def readDirective (lexer : Lexer) (rest : Text) : Except Fault Lexer := do
  let (directive, rest) ← Directive.read rest
  lexer.readBetweenDocuments (.directive directive) rest

def readToken (lexer : Lexer) (c : Char) (rest : Text) : Except Fault Lexer :=
  let text := c :: rest
  let atLineStart := lexer.cursor.column == 0
  if atLineStart && c == '%' then lexer.readDirective rest
  else if atLineStart && atTriple '-' text then
    lexer.readBetweenDocuments .documentStart (rest.drop 2)
  else if atLineStart && atTriple '.' text then
    lexer.readBetweenDocuments .documentEnd (rest.drop 2)
  else if c == '[' then lexer.readOpening .flowSequence rest
  else if c == '\x7b' then lexer.readOpening .flowMapping rest
  else if c == ']' then lexer.readClosing .flowSequenceEnd rest
  else if c == '\x7d' then lexer.readClosing .flowMappingEnd rest
  else if c == ',' then lexer.readSeparator rest
  else if c == '-' && endsWord rest then lexer.readItem rest
  else if c == '?' && (lexer.inFlow || endsWord rest) then lexer.readKey rest
  else if c == ':' && (lexer.inFlow || endsWord rest) then lexer.readValue rest
  else if c == '*' then lexer.readProperty .reference (require (anchorName? rest))
  else if c == '&' then lexer.readProperty .anchor (require (anchorName? rest))
  else if c == '!' then lexer.readProperty .tag (WrittenTag.read rest)
  else if c == '|' && !lexer.inFlow then lexer.readBlockScalar false rest
  else if c == '>' && !lexer.inFlow then lexer.readBlockScalar true rest
  else if c == '\'' then lexer.readQuoted (singleQuoted .none rest)
  else if c == '"' then lexer.readQuoted (doubleQuoted .none rest)
  else if beginsPlain lexer.inFlow text then lexer.readPlain
  else .error .malformed

def skipToToken (lexer : Lexer) : Lexer :=
  let text := lexer.cursor.rest
  let text :=
    if lexer.cursor.index = 0 ∧ text.head? = some byteOrderMark then text.drop 1 else text
  let (rest, crossed) := skipGap false false text
  (lexer.moveTo rest).allowKey (lexer.keyAllowed || (crossed && !lexer.inFlow))

def finish (lexer : Lexer) : Except Fault Lexer :=
  lexer.unwindAll.dropKey

def lookAhead (lexer : Lexer) : Text → Nat
  | [] => 1
  | c :: rest =>
    if lexer.cursor.column = 0 ∧ (c = '-' ∨ c = '.') then
      if rest.take 2 = [c, c] then 4 else 3
    else if (c = '|' ∨ c = '>') ∧ !lexer.inFlow then 1
    else if c = '\t' ∨ (isIndicator c ∧ !isFlowMark c) then 2
    else 1

def readNext (lexer : Lexer) : Except Fault Lexer := do
  let lexer ← lexer.dropStaleKeys
  let text := lexer.cursor.rest
  if lexer.beyond?.isSome ∧ text.drop (lexer.lookAhead text - 1) = [] then throw .unfinished
  match text with
  | [] => lexer.finish
  | c :: rest => lexer.unwind.readToken c rest

def step (lexer : Lexer) : Except Fault Lexer :=
  let lexer := lexer.skipToToken
  match lexer.beyond? with
  | none => lexer.readNext
  | some beyond =>
    if lexer.cursor.rest = [] then .error beyond
    else
      match lexer.readNext with
      | .error .unfinished => .error beyond
      | .error fault => .error fault
      | .ok next => if next.cursor.rest = [] then .error beyond else .ok next

def settled (lexer : Lexer) : List Token :=
  let pending := lexer.keys.filter fun (_, key) => !lexer.isStale key
  lexer.tokens.take (pending.foldl (fun least (_, key) => min least key.position) lexer.tokens.length)

def run (lexer : Lexer) : List Token :=
  match lexer.step with
  | .error fault => lexer.settled ++ [.fault fault]
  | .ok next =>
    if next.cursor.rest.length < lexer.cursor.rest.length then run next else next.tokens
termination_by lexer.cursor.rest.length

end Lexer

def Token.ofStream (stream : Stream) : List Token :=
  Lexer.run { cursor := { rest := stream.text }, beyond? := stream.beyond? }

end Inlay.Yaml
