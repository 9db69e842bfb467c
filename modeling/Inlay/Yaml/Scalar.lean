import Inlay.Yaml.Character

set_option autoImplicit false

namespace Inlay.Yaml

open Text

def isIndicator (c : Char) : Bool :=
  "-?:,[]\x7b\x7d#&*!|>'\"%@`".toList.contains c

def beginsPlain (inFlow : Bool) : Text → Bool
  | [] => false
  | c :: rest =>
    !(isSpace c || isBreak c || isIndicator c)
      || (!endsWord rest && (c == '-' || (!inFlow && (c == '?' || c == ':'))))

def endsPlain (inFlow : Bool) (c : Char) (rest : Text) : Bool :=
  isSpace c
    || (c == ':' && (endsWord rest || (inFlow && (rest.head?.map isFlowMark).getD false)))
    || (inFlow && (c == '?' || isFlowMark c))

structure PlainScalar where
  text : Text
  gap : Gap
  rest : Text

def plainFrom (inFlow : Bool) (indent : Nat) (gap : Gap) (column : Nat) : Text → PlainScalar
  | [] => ⟨[], gap, []⟩
  | c :: rest =>
    if c = ' ' then plainFrom inFlow indent (gap.addSpace c) (column + 1) rest
    else if isBreak c then
      if atMarker rest then ⟨[], gap.addBreak c, rest⟩
      else plainFrom inFlow indent (gap.addBreak c) 0 rest
    else if gap != .none && c == '#' then ⟨[], gap, c :: rest⟩
    else if gap.isBroken && !inFlow && decide (column < indent) then ⟨[], gap, c :: rest⟩
    else if endsPlain inFlow c rest then ⟨[], gap, c :: rest⟩
    else
      let scalar := plainFrom inFlow indent .none (column + 1) rest
      { scalar with text := gap.text ++ c :: scalar.text }

def PlainScalar.read (inFlow : Bool) (indent column : Nat) (text : Text) : PlainScalar :=
  plainFrom inFlow indent .none column text

def prepend (text : Text) (read : Except Fault (Text × Text)) : Except Fault (Text × Text) :=
  read.map fun (more, rest) => (text ++ more, rest)

def singleQuoted (gap : Gap) : Text → Except Fault (Text × Text)
  | [] => .error .unfinished
  | '\'' :: '\'' :: rest => prepend (gap.text ++ ['\'']) (singleQuoted .none rest)
  | c :: rest =>
    if c = '\'' then .ok (gap.text, rest)
    else if isSpace c then singleQuoted (gap.addSpace c) rest
    else if isBreak c then
      if atMarker rest then .error .malformed else singleQuoted (gap.addBreak c) rest
    else prepend (gap.text ++ [c]) (singleQuoted .none rest)

def escapes : List (Char × Nat) :=
  [('0', 0), ('a', 7), ('b', 8), ('t', 9), ('\t', 9), ('n', 10), ('v', 11), ('f', 12), ('r', 13),
   ('e', 0x1B), (' ', 0x20), ('"', 0x22), ('\\', 0x5C), ('/', 0x2F), ('N', 0x85), ('_', 0xA0),
   ('L', 0x2028), ('P', 0x2029)]

def codeWidths : List (Char × Nat) :=
  [('x', 2), ('u', 4), ('U', 8)]

def isHexDigit (c : Char) : Bool :=
  isAsciiDigit c || (decide ('a' <= c) && decide (c <= 'f')) || (decide ('A' <= c) && decide (c <= 'F'))

def codePoint (width : Nat) (digits : Text) : Except Fault Char :=
  if !digits.all isHexDigit then .error .malformed
  else if digits.length < width then .error .unfinished
  else
    let code := ofDigitValues 16 (digits.filterMap (digitOfBase? 16))
    if 0x80000000 <= code then .error .tooLarge
    else if 0x10FFFF < code then .error .badNumber
    else .ok (Char.ofNat code)

def doubleQuoted (gap : Gap) : Text → Except Fault (Text × Text)
  | [] => .error .unfinished
  | ['\\'] => .error .unfinished
  | '\\' :: c :: rest =>
    if isBreak c then
      if atMarker rest then .error .malformed
      else prepend gap.text (doubleQuoted (.continued []) rest)
    else
      match escapes.lookup c with
      | some code => prepend (gap.text ++ [Char.ofNat code]) (doubleQuoted .none rest)
      | none =>
        match codeWidths.lookup c with
        | some width =>
          match codePoint width (rest.take width) with
          | .error fault => .error fault
          | .ok value => prepend (gap.text ++ [value]) (doubleQuoted .none (rest.drop width))
        | none => .error .malformed
  | c :: rest =>
    if c = '"' then .ok (gap.text, rest)
    else if isSpace c then doubleQuoted (gap.addSpace c) rest
    else if isBreak c then
      if atMarker rest then .error .malformed else doubleQuoted (gap.addBreak c) rest
    else prepend (gap.text ++ [c]) (doubleQuoted .none rest)
termination_by text => text.length
decreasing_by
  all_goals simp only [List.length_cons, List.length_drop]
  all_goals omega

inductive Chomp
  | strip
  | clip
  | keep
  deriving Repr, DecidableEq

structure BlockHeader where
  folded : Bool
  chomp : Chomp := .clip
  increment? : Option Nat := none
  deriving Repr, DecidableEq

namespace BlockHeader

def chomp? : Char → Option Chomp
  | '+' => some .keep
  | '-' => some .strip
  | _ => none

def readIncrement (header : BlockHeader) : Text → Option (BlockHeader × Text)
  | [] => some (header, [])
  | c :: rest =>
    if isAsciiDigit c then
      if c = '0' then none
      else some ({ header with increment? := some (c.toNat - '0'.toNat) }, rest)
    else some (header, c :: rest)

def readChomp (header : BlockHeader) : Text → BlockHeader × Text
  | [] => (header, [])
  | c :: rest =>
    match chomp? c with
    | some chomp => ({ header with chomp := chomp }, rest)
    | none => (header, c :: rest)

def read? (folded : Bool) (text : Text) : Option (BlockHeader × Text) := do
  let start : BlockHeader := { folded := folded }
  let (header, rest) ←
    match readChomp start text with
    | (header, rest) =>
      if header = start then (readIncrement start text).map fun (header, rest) =>
        if header = start then (header, rest) else readChomp header rest
      else readIncrement header rest
  if endsProperty rest then
    let rest ← skipLineEnd? rest
    return (header, rest)
  else none

end BlockHeader

structure Line where
  text : Text
  break? : Option Char
  deriving Repr, DecidableEq

namespace Line

def consHead (c : Char) : List Line → List Line
  | [] => [⟨[c], none⟩]
  | line :: lines => { line with text := c :: line.text } :: lines

def ofText : Text → List Line
  | [] => []
  | c :: rest => if isBreak c then ⟨[], some c⟩ :: ofText rest else consHead c (ofText rest)

def width (line : Line) : Nat :=
  line.text.length + if line.break?.isSome then 1 else 0

def indent (line : Line) : Nat :=
  (line.text.takeWhile (· == ' ')).length

def isBlank (indentation : Nat) (line : Line) : Bool :=
  line.text.all (· == ' ') && decide (line.text.length <= indentation)

def isInside (indentation : Nat) (line : Line) : Bool :=
  line.isBlank indentation || decide (indentation <= line.indent)

def breakText (line : Line) : Text :=
  (line.break?.map breakValue).toList

end Line

def shownIndent : List Line → Nat
  | [] => 0
  | line :: lines =>
    if line.text.all (· == ' ') then max line.indent (shownIndent lines) else line.indent

def beginsWord (text : Text) : Bool :=
  !(text.head?.map isSpace).getD false

def BlockHeader.between (header : BlockHeader) (upper : Text) (ending : Text) (breaks : Text)
    (lower : Text) : Text :=
  if header.folded && ending == ['\n'] && beginsWord upper && beginsWord lower then
    if breaks = [] then [' '] else breaks
  else ending ++ breaks

def BlockHeader.finish (header : BlockHeader) (ending breaks : Text) : Text :=
  match header.chomp with
  | .strip => []
  | .clip => ending
  | .keep => ending ++ breaks

def BlockHeader.continue (header : BlockHeader) (indentation : Nat) (upper ending breaks : Text) :
    List Line → Text
  | [] => header.finish ending breaks
  | line :: lines =>
    if line.isBlank indentation then
      header.continue indentation upper ending (breaks ++ line.breakText) lines
    else
      let lower := line.text.drop indentation
      header.between upper ending breaks lower ++ lower
        ++ header.continue indentation lower line.breakText [] lines

def BlockHeader.join (header : BlockHeader) (indentation : Nat) (breaks : Text) :
    List Line → Text
  | [] => header.finish [] breaks
  | line :: lines =>
    if line.isBlank indentation then
      header.join indentation (breaks ++ line.breakText) lines
    else
      let text := line.text.drop indentation
      breaks ++ text ++ header.continue indentation text line.breakText [] lines

def blockScalar? (folded : Bool) (least : Nat) (text : Text) : Option (Text × Text) := do
  let (header, rest) ← BlockHeader.read? folded text
  let lines := Line.ofText rest
  let indentation :=
    match header.increment? with
    | some increment => least + increment - 1
    | none => max least (shownIndent lines)
  let inside := lines.takeWhile (Line.isInside indentation)
  return (header.join indentation [] inside,
    rest.drop (inside.foldl (fun total line => total + line.width) 0))

end Inlay.Yaml
