import Inlay.Decimal.Shortest

set_option autoImplicit false

namespace Inlay

open Text

inductive Json
  | null
  | bool (value : Bool)
  | int (value : Int)
  | float (value : Double)
  | text (value : Text)
  | list (items : List Json)
  | object (fields : List (Text × Json))

namespace Json

instance : Inhabited Json := ⟨null⟩

instance : Coe Text Json := ⟨text⟩

instance : Coe String Json := ⟨fun value => text value⟩

def decimal : Decimal.Format :=
  ⟨-4, 16, "NaN", "Infinity"⟩

def shortEscapes : List (Char × Char) :=
  [('"', '"'), ('\\', '\\'), ('\n', 'n'), ('\r', 'r'), ('\t', 't'), (Char.ofNat 12, 'f'),
   (Char.ofNat 8, 'b')]

def unicodeEscape (c : Char) : Text :=
  let code := c.toNat
  if code < 0x10000 then '\\' :: 'u' :: hex 4 code
  else
    let offset := code - 0x10000
    '\\' :: 'u' :: hex 4 (0xD800 + offset / 0x400) ++ '\\' :: 'u' :: hex 4 (0xDC00 + offset % 0x400)

def escape (c : Char) : Text :=
  match shortEscapes.lookup c with
  | some short => ['\\', short]
  | none => if 32 <= c.toNat ∧ c.toNat <= 126 then [c] else unicodeEscape c

def quote (value : Text) : Text :=
  '"' :: value.flatMap escape ++ ['"']

inductive Layout
  | inline
  | lines (indent : Nat)
  deriving Repr, DecidableEq

def Layout.newline (layout : Layout) (level : Nat) : Text :=
  match layout with
  | inline => []
  | lines indent => '\n' :: List.replicate (indent * level) ' '

def Layout.comma : Layout → Text
  | inline => [',', ' ']
  | lines _ => [',']

def enclose (layout : Layout) (level : Nat) (opening closing : Char) (parts : List Text) : Text :=
  match parts with
  | [] => [opening, closing]
  | _ => opening :: layout.newline (level + 1)
      ++ join (layout.comma ++ layout.newline (level + 1)) parts
      ++ layout.newline level ++ [closing]

mutual

def print (layout : Layout) (level : Nat) : Json → Text
  | null => "null"
  | bool true => "true"
  | bool false => "false"
  | int value => ofInt value
  | float value => decimal.write value
  | text value => quote value
  | list items => enclose layout level '[' ']' (printItems layout (level + 1) items)
  | object fields => enclose layout level '\x7b' '\x7d' (printFields layout (level + 1) fields)

def printItems (layout : Layout) (level : Nat) : List Json → List Text
  | [] => []
  | item :: items => print layout level item :: printItems layout level items

def printFields (layout : Layout) (level : Nat) : List (Text × Json) → List Text
  | [] => []
  | (name, value) :: fields =>
    (quote name ++ [':', ' '] ++ print layout level value) :: printFields layout level fields

end

def write (layout : Layout) (document : Json) : Text :=
  print layout 0 document

def setField (fields : List (Text × Json)) (name : Text) (value : Json) : List (Text × Json) :=
  if fields.any (·.1 == name) then
    fields.map fun field => if field.1 = name then (name, value) else field
  else fields ++ [(name, value)]

def addFields (fields added : List (Text × Json)) : List (Text × Json) :=
  added.foldl (fun fields (name, value) => setField fields name value) fields

end Json
end Inlay
