import Inlay.Text.Character
import Inlay.Text.Codec

set_option autoImplicit false

namespace Inlay

open Text

inductive Switch
  | help
  | version
  | verbose
  | json
  | projectRoot
  deriving Repr, DecidableEq

structure Flag where
  switch : Switch
  spellings : List Text
  takesValue : Bool := false
  deriving Repr, DecidableEq

structure Grammar where
  name : Text
  usage : Text
  help : Text
  flags : List Flag
  operands : List Text := []
  deriving Repr, DecidableEq

inductive Stop
  | help (grammar : Grammar)
  | version
  | misuse (grammar : Grammar) (message : Text)
  deriving Repr, DecidableEq

inductive Word
  | flag (flag : Flag) (spelling : Text) (attached? : Option Text)
  | unknown (text : Text)
  | operand (text : Text)
  | divider
  deriving Repr, DecidableEq

namespace Flag

def label (flag : Flag) : Text :=
  join ['/'] flag.spellings

def fault {A : Type} (flag : Flag) (grammar : Grammar) (text : Text) : Except Stop A :=
  .error (.misuse grammar ("argument ".toList ++ flag.label ++ [':', ' '] ++ text))

end Flag

namespace Word

def operandText : Word → Text
  | operand text => text
  | divider => ['-', '-']
  | unknown text => text
  | flag _ spelling _ => spelling

end Word

namespace Grammar

def spelled (grammar : Grammar) : List (Text × Flag) :=
  grammar.flags.flatMap fun flag => flag.spellings.map fun spelling => (spelling, flag)

def flag? (grammar : Grammar) (spelling : Text) : Option Flag :=
  grammar.spelled.lookup spelling

def isNegativeNumber (text : Text) : Bool :=
  match (upTo? ['\n'] text).getD text with
  | '-' :: body =>
    match body.dropWhile isDigit with
    | [] => body != []
    | '.' :: fraction => fraction != [] && fraction.all isDigit
    | _ => false
  | _ => false

def splitValue (text : Text) : Text × Option Text :=
  match cut? ['='] text with
  | some (front, value) => (front, some value)
  | none => (text, none)

def candidates (grammar : Grammar) (text : Text) : List Word :=
  match text with
  | '-' :: '-' :: _ =>
    let (front, value?) := splitValue text
    (grammar.spelled.filter fun (spelling, _) => front.isPrefixOf spelling).map
      fun (spelling, flag) => .flag flag spelling value?
  | _ =>
    grammar.spelled.filterMap fun (spelling, flag) =>
      if spelling = text.take 2 then some (.flag flag spelling (some (text.drop 2)))
      else if text.isPrefixOf spelling then some (.flag flag spelling none)
      else none

def wholeWord? (grammar : Grammar) (text : Text) : Option Word :=
  match grammar.flag? text, splitValue text with
  | some flag, _ => some (.flag flag text none)
  | none, (front, some value) =>
    (grammar.flag? front).map fun flag => .flag flag front (some value)
  | none, (_, none) => none

def spellingOf : Word → Text
  | .flag _ spelling _ => spelling
  | word => word.operandText

def word (grammar : Grammar) (text : Text) : Except Stop Word :=
  match text with
  | '-' :: _ :: _ =>
    match grammar.wholeWord? text, grammar.candidates text with
    | some word, _ => .ok word
    | none, [word] => .ok word
    | none, [] =>
      .ok (if isNegativeNumber text || text.contains ' ' then .operand text else .unknown text)
    | none, words =>
      .error (.misuse grammar ("ambiguous option: ".toList ++ text ++ " could match ".toList
        ++ join [',', ' '] (words.map spellingOf)))
  | text => .ok (.operand text)

def words (grammar : Grammar) : List Text → Except Stop (List Word)
  | [] => .ok []
  | text :: texts =>
    if text = ['-', '-'] then .ok (.divider :: texts.map .operand)
    else do
      let word ← grammar.word text
      return word :: (← grammar.words texts)

end Grammar

structure Parsed where
  switches : List (Switch × Option Text) := []
  operands : List (Option Text) := []
  extras : List Text := []
  deriving Repr, DecidableEq

namespace Parsed

def has (parsed : Parsed) (switch : Switch) : Bool :=
  parsed.switches.any (·.1 == switch)

def value? (parsed : Parsed) (switch : Switch) : Option Text :=
  (parsed.switches.reverse.lookup switch).join

def addExtra (parsed : Parsed) (text : Text) : Parsed :=
  { parsed with extras := parsed.extras ++ [text] }

def apply (parsed : Parsed) (grammar : Grammar) (switch : Switch) (value? : Option Text) :
    Except Stop Parsed :=
  match switch with
  | .help => .error (.help grammar)
  | .version => .error .version
  | switch => .ok { parsed with switches := parsed.switches ++ [(switch, value?)] }

def refuseAttached {A : Type} (grammar : Grammar) (flag : Flag) (text : Text) : Except Stop A :=
  flag.fault grammar ("ignored explicit argument ".toList ++ quoted text)

def cluster (grammar : Grammar) (flag : Flag) (spelling : Text) :
    Text → Except Stop (List Flag × Flag × Option Text)
  | [] => .ok ([], flag, some [])
  | c :: rest =>
    if flag.takesValue || spelling.take 2 == ['-', '-'] then .ok ([], flag, some (c :: rest))
    else
      match grammar.flag? ['-', c], rest with
      | none, _ => refuseAttached grammar flag (c :: rest)
      | some next, [] => .ok ([flag], next, none)
      | some next, d :: more =>
        (cluster grammar next ['-', c] (d :: more)).map fun (flags, last) => (flag :: flags, last)
termination_by text => text.length

def valueOf (grammar : Grammar) (flag : Flag) (text? : Option Text) (next : List Word) :
    Except Stop (Option Text × Bool) :=
  match flag.takesValue, text?, next with
  | false, none, _ => .ok (none, false)
  | false, some text, _ => refuseAttached grammar flag text
  | true, some text, _ => .ok (if text = ['-', '-'] then none else some text, false)
  | true, none, .operand text :: _ => .ok (some text, true)
  | true, none, _ => flag.fault grammar "expected one argument"

def applyAll (parsed : Parsed) (grammar : Grammar) (flags : List Flag) : Except Stop Parsed :=
  flags.foldlM (fun parsed flag => parsed.apply grammar flag.switch none) parsed

def takeFlag (parsed : Parsed) (grammar : Grammar) (flag : Flag) (spelling : Text)
    (attached? : Option Text) (next : List Word) : Except Stop (Parsed × Bool) := do
  let (flags, last, text?) ←
    match attached? with
    | none => pure ([], flag, none)
    | some attached => cluster grammar flag spelling attached
  let (value?, usesNext) ← valueOf grammar last text? next
  let parsed ← parsed.applyAll grammar flags
  return (← parsed.apply grammar last.switch value?, usesNext)

def isOpen (parsed : Parsed) (grammar : Grammar) : Bool :=
  decide (parsed.operands.length < grammar.operands.length)

def addOperand (parsed : Parsed) (text? : Option Text) : Parsed :=
  { parsed with operands := parsed.operands ++ [text?] }

def takeBehind (parsed : Parsed) (grammar : Grammar) (pending : Bool) : List Word → Parsed
  | [] => if pending then parsed.addExtra ['-', '-'] else parsed
  | word :: words =>
    let text := word.operandText
    if parsed.isOpen grammar then
      let text? := if text = ['-', '-'] ∧ !pending then none else some text
      (parsed.addOperand text?).takeBehind grammar false words
    else
      let parsed := if pending then parsed.addExtra ['-', '-'] else parsed
      (parsed.addExtra text).takeBehind grammar false words

def take (grammar : Grammar) (parsed : Parsed) (skip : Bool) : List Word → Except Stop Parsed
  | [] => .ok parsed
  | word :: words =>
    if skip then take grammar parsed false words
    else
      match word with
      | .flag flag spelling attached? => do
        let (parsed, usesNext) ← parsed.takeFlag grammar flag spelling attached? words
        take grammar parsed usesNext words
      | .unknown text => take grammar (parsed.addExtra text) false words
      | .operand text =>
        if parsed.isOpen grammar then
          let parsed := parsed.addOperand (some text)
          match words with
          | .divider :: words => .ok (parsed.takeBehind grammar false words)
          | words => take grammar parsed false words
        else take grammar (parsed.addExtra text) false words
      | .divider => .ok (parsed.takeBehind grammar true words)

def missing? (parsed : Parsed) (grammar : Grammar) : Option Text :=
  match grammar.operands.drop parsed.operands.length with
  | [] => none
  | names => some ("the following arguments are required: ".toList ++ join [',', ' '] names)

def read (grammar : Grammar) (arguments : List Text) : Except Stop Parsed := do
  let parsed ← take grammar {} false (← grammar.words arguments)
  match parsed.missing? grammar with
  | none => return parsed
  | some message => throw (.misuse grammar message)

end Parsed
end Inlay
