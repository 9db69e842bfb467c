import Inlay.Text.Basic
import Inlay.Text.Charset

set_option autoImplicit false

namespace Inlay

namespace Text

def quoteOf (text : Text) : Char :=
  if text.contains '\'' && !text.contains '"' then '"' else '\''

def escapeQuoted (quote c : Char) : Text :=
  if c = quote ∨ c = '\\' then ['\\', c]
  else if c = '\n' then ['\\', 'n']
  else if c = '\r' then ['\\', 'r']
  else if c = '\t' then ['\\', 't']
  else if printable.has c then [c]
  else if c.toNat < 0x100 then '\\' :: 'x' :: hex 2 c.toNat
  else if c.toNat < 0x10000 then '\\' :: 'u' :: hex 4 c.toNat
  else '\\' :: 'U' :: hex 8 c.toNat

def quoted (text : Text) : Text :=
  let quote := quoteOf text
  quote :: text.flatMap (escapeQuoted quote) ++ [quote]

end Text

open Text

abbrev Bytes := List UInt8

inductive DecodeReason
  | startByte
  | continuation
  | endOfData
  | range
  | other (text : Text)
  deriving Repr, DecidableEq

structure DecodeFault where
  codec : Text
  position : Nat
  length : Nat
  byte : UInt8
  reason : DecodeReason
  deriving Repr, DecidableEq

def DecodeReason.message : DecodeReason → Text
  | startByte => "invalid start byte"
  | continuation => "invalid continuation byte"
  | endOfData => "unexpected end of data"
  | range => "ordinal not in range(128)"
  | other text => text

def DecodeFault.message (fault : DecodeFault) : Text :=
  quoted fault.codec ++ " codec can't decode ".toList ++
    (if fault.length = 1 then
      "byte 0x".toList ++ hex 2 fault.byte.toNat ++ " in position ".toList ++ ofNat fault.position
    else
      "bytes in position ".toList ++ ofNat fault.position ++ '-' ::
        ofNat (fault.position + fault.length - 1))
    ++ ": ".toList ++ fault.reason.message

namespace Utf8

def isContinuation (b : UInt8) : Bool :=
  decide (0x80 <= b) && decide (b <= 0xBF)

def width? (b : UInt8) : Option Nat :=
  if b < 0x80 then some 1
  else if b < 0xC2 then none
  else if b < 0xE0 then some 2
  else if b < 0xF0 then some 3
  else if b < 0xF5 then some 4
  else none

/-- No overlong form, no surrogate, and nothing beyond the last code point. -/
def admits (first second : UInt8) : Bool :=
  isContinuation second
    && !(first == 0xE0 && decide (second < 0xA0)) && !(first == 0xED && decide (0xA0 <= second))
    && !(first == 0xF0 && decide (second < 0x90)) && !(first == 0xF4 && decide (0x90 <= second))

def accepted (first : UInt8) (missing : Nat) (bytes : Bytes) : Nat :=
  match missing, bytes with
  | 0, _ => 0
  | _, [] => 0
  | missing + 1, second :: more =>
    if admits first second then 1 + ((more.take missing).takeWhile isContinuation).length else 0

def value (first : UInt8) (width : Nat) (more : Bytes) : Nat :=
  let start := if width = 1 then first.toNat else first.toNat % Nat.pow 2 (7 - width)
  more.foldl (fun total b => total * 64 + b.toNat % 64) start

inductive Front
  | character (c : Char) (more : Nat)
  | incomplete
  | fault (length : Nat) (reason : DecodeReason)
  deriving Repr, DecidableEq

def front (first : UInt8) (rest : Bytes) : Front :=
  match width? first with
  | none => .fault 1 .startByte
  | some width =>
    let found := accepted first (width - 1) rest
    if found = width - 1 then .character (Char.ofNat (value first width (rest.take found))) found
    else if found = rest.length then .incomplete
    else .fault (found + 1) .continuation

def decodeFrom (position : Nat) : Bytes → Except DecodeFault (Text × Bytes)
  | [] => .ok ([], [])
  | first :: rest =>
    match front first rest with
    | .character c more =>
      (decodeFrom (position + 1 + more) (rest.drop more)).map fun (text, left) => (c :: text, left)
    | .incomplete => .ok ([], first :: rest)
    | .fault length reason => .error ⟨"utf-8", position, length, first, reason⟩
termination_by bytes => bytes.length
decreasing_by
  simp only [List.length_drop, List.length_cons]
  omega

/-- Two bytes of a surrogate at the end are kept and refused with the third one. -/
def decodePart (bytes : Bytes) : Except DecodeFault (Text × Bytes) :=
  match decodeFrom 0 bytes with
  | .ok decoded => .ok decoded
  | .error fault =>
    match bytes.drop fault.position with
    | [first, second] =>
      if first = 0xED ∧ isContinuation second then
        (decodeFrom 0 (bytes.take fault.position)).map fun (text, _) => (text, [first, second])
      else .error fault
    | _ => .error fault

def decode (bytes : Bytes) : Except DecodeFault Text :=
  match decodeFrom 0 bytes with
  | .error fault => .error fault
  | .ok (text, []) => .ok text
  | .ok (_, first :: rest) =>
    .error ⟨"utf-8", bytes.length - (rest.length + 1), rest.length + 1, first, .endOfData⟩

def encode (text : Text) : Bytes :=
  text.flatMap String.utf8EncodeChar

end Utf8

def byteOrderMark : Bytes := [0xEF, 0xBB, 0xBF]

inductive Codec
  | utf8
  | markedUtf8
  | latin1
  | ascii
  deriving Repr, DecidableEq

namespace Codec

def plainName (name : Text) : Text :=
  let isKept (c : Char) : Bool := c.isAlphanum || c == '.'
  let rec go (pending : Bool) : Text → Text
    | [] => []
    | c :: rest =>
      if isKept c then (if pending then ['_'] else []) ++ c.toLower :: go false rest
      else go true rest
  match name.dropWhile (fun c => !isKept c) with
  | [] => []
  | kept => go false kept

def ownName : Codec → String
  | utf8 => "utf_8"
  | markedUtf8 => "utf_8_sig"
  | latin1 => "latin_1"
  | ascii => "ascii"

def aliases : Codec → List String
  | utf8 => ["utf8", "u8", "utf", "utf8_ucs2", "utf8_ucs4", "cp65001"]
  | markedUtf8 => []
  | latin1 =>
    ["8859", "cp819", "csisolatin1", "ibm819", "iso8859", "iso8859_1", "iso_8859_1",
     "iso_8859_1_1987", "iso_ir_100", "l1", "latin", "latin1"]
  | ascii =>
    ["646", "ansi_x3.4_1968", "ansi_x3_4_1968", "ansi_x3.4_1986", "cp367", "csascii", "ibm367",
     "iso646_us", "iso_646.irv_1991", "iso_ir_6", "us", "us_ascii"]

def isNamed (codec : Codec) (name : Text) : Bool :=
  let undotted := name.map fun c => if c = '.' then '_' else c
  codec.ownName.toList == name
    || codec.aliases.any fun known => known.toList == name || known.toList == undotted

def ofName? (name : Text) : Option Codec :=
  [utf8, markedUtf8, latin1, ascii].find? fun codec => codec.isNamed (plainName name)

def decodeAscii (position : Nat) : Bytes → Except DecodeFault Text
  | [] => .ok []
  | b :: bytes =>
    if b < 0x80 then (decodeAscii (position + 1) bytes).map (Char.ofNat b.toNat :: ·)
    else .error ⟨"ascii", position, 1, b, .range⟩

/-- Bytes that are but the beginning of a mark are an empty text. -/
def decodeMarked (bytes : Bytes) : Except DecodeFault Text :=
  if bytes.length < 3 ∧ bytes.isPrefixOf byteOrderMark then .ok []
  else if byteOrderMark.isPrefixOf bytes then Utf8.decode (bytes.drop 3)
  else Utf8.decode bytes

def decode (codec : Codec) (bytes : Bytes) : Except DecodeFault Text :=
  match codec with
  | utf8 => Utf8.decode bytes
  | markedUtf8 => decodeMarked bytes
  | latin1 => .ok (bytes.map fun b => Char.ofNat b.toNat)
  | ascii => decodeAscii 0 bytes

def encodeBelow? (limit : Nat) (text : Text) : Option Bytes :=
  text.mapM fun c => if c.toNat < limit then some c.toNat.toUInt8 else none

def encode? (codec : Codec) (text : Text) : Option Bytes :=
  match codec with
  | utf8 => some (Utf8.encode text)
  | markedUtf8 => some (byteOrderMark ++ Utf8.encode text)
  | latin1 => encodeBelow? 0x100 text
  | ascii => encodeBelow? 0x80 text

end Codec

/-- Why an encoding has no text for some bytes: it says where, or refuses them as a whole. -/
inductive DecodeError
  | undecodable (fault : DecodeFault)
  | refused (message : Text)
  deriving Repr, DecidableEq

inductive EncodeError
  | unencodable
  | refused (message : Text)
  deriving Repr, DecidableEq

/-- Any encoding, by what it does. -/
structure Coding where
  decode : Bytes → Except DecodeError Text
  encode : Text → Except EncodeError Bytes

def Codec.coding (codec : Codec) : Coding where
  decode bytes :=
    match codec.decode bytes with
    | .ok text => .ok text
    | .error fault => .error (.undecodable fault)
  encode text :=
    match codec.encode? text with
    | some bytes => .ok bytes
    | none => .error .unencodable

namespace Codec

variable {codec : Codec} {text : Text} {bytes : Bytes}

theorem encode_coding_iff : codec.coding.encode text = .ok bytes ↔ codec.encode? text = some bytes := by
  cases encoded : codec.encode? text <;> simp [coding, encoded]

theorem decode_coding_iff : codec.coding.decode bytes = .ok text ↔ codec.decode bytes = .ok text := by
  cases decoded : codec.decode bytes <;> simp [coding, decoded]

theorem exists_of_decode_error {cause : DecodeError} (failed : codec.coding.decode bytes = .error cause) :
    ∃ fault, cause = .undecodable fault := by
  cases decoded : codec.decode bytes <;> simp [coding, decoded] at failed
  exact ⟨_, failed.symm⟩

end Codec

/-- What there is under a name: no encoding, one that has no texts, or one that has. -/
inductive Registration
  | unknown
  | binary
  | text (coding : Coding)

namespace Base64

def digit? (c : Char) : Option Nat :=
  if decide ('A' <= c) && decide (c <= 'Z') then some (c.toNat - 65)
  else if decide ('a' <= c) && decide (c <= 'z') then some (c.toNat - 71)
  else if decide ('0' <= c) && decide (c <= '9') then some (c.toNat + 4)
  else if c = '+' then some 62
  else if c = '/' then some 63
  else none

def readFrom (place left pads : Nat) : Text → Option Bytes
  | [] => if place = 0 then some [] else none
  | c :: text =>
    if c = '=' then
      if 2 <= place ∧ 4 <= place + pads + 1 then some []
      else readFrom place left (if 2 <= place then pads + 1 else pads) text
    else
      match digit? c with
      | none => readFrom place left pads text
      | some value =>
        match place with
        | 0 => readFrom 1 value 0 text
        | 1 => (readFrom 2 (value % 16) 0 text).map ((left * 4 + value / 16).toUInt8 :: ·)
        | 2 => (readFrom 3 (value % 4) 0 text).map ((left * 16 + value / 4).toUInt8 :: ·)
        | _ => (readFrom 0 0 0 text).map ((left * 64 + value).toUInt8 :: ·)

def read? (text : Text) : Option Bytes :=
  readFrom 0 0 0 text

end Base64

end Inlay
