import Inlay.Text.Basic
import Inlay.Text.Codec

set_option autoImplicit false

namespace Inlay

open Text

def isPlainComponent (component : Text) : Bool :=
  component != [] && component != ['.'] && component != ['.', '.']

structure Path where
  doubleSlash : Bool
  components : List Text
  deriving Repr, DecidableEq

namespace Path

def enter (components : List Text) (component : Text) : List Text :=
  if component = [] ∨ component = ['.'] then components
  else if component = ['.', '.'] then components.dropLast
  else components ++ [component]

def hasDoubleSlash : Text → Bool
  | '/' :: '/' :: '/' :: _ => false
  | '/' :: '/' :: _ => true
  | _ => false

def isAbsolute : Text → Bool
  | '/' :: _ => true
  | _ => false

def ofText (text : Text) : Path where
  doubleSlash := hasDoubleSlash text
  components := (splitAt '/' text).foldl enter []

def toText (path : Path) : Text :=
  (if path.doubleSlash then ['/', '/'] else ['/']) ++ join ['/'] path.components

def actual (text : Text) : Text :=
  '/' :: join ['/'] (ofText text).components

def tidy (text : Text) : Text :=
  let front : Text := if hasDoubleSlash text then ['/', '/'] else if isAbsolute text then ['/'] else []
  let components := (splitAt '/' text).filter fun component => component != [] && component != ['.']
  if front = [] ∧ components = [] then ['.'] else front ++ join ['/'] components

def directory (text : Text) : Text :=
  let head := (text.reverse.dropWhile (· != '/')).reverse
  if head.all (· == '/') then head else (head.reverse.dropWhile (· == '/')).reverse

def joinTexts (base text : Text) : Text :=
  if isAbsolute text then text
  else if base = [] ∨ base.getLast? = some '/' then base ++ text
  else base ++ '/' :: text

def resolve (document text : Text) : Path :=
  ofText (joinTexts (directory document) text)

end Path

inductive FileFault
  | missing (path : Text)
  | occupied (path : Text)
  | notDirectory (path : Text)
  | isDirectory (path : Text)
  | nameTooLong (path : Text)
  | nullCharacter
  | undecodable (fault : DecodeFault)
  | unencodable
  | refused (message : Text)
  | unknownEncoding (name : Text)
  | binaryEncoding (name : Text)
  deriving Repr, DecidableEq

namespace FileFault

def systemMessage (number : Nat) (text path : Text) : Text :=
  "[Errno ".toList ++ ofNat number ++ [']', ' '] ++ text ++ [':', ' '] ++ quoted path

def message : FileFault → Text
  | missing path => systemMessage 2 "No such file or directory" path
  | occupied path => systemMessage 17 "File exists" path
  | notDirectory path => systemMessage 20 "Not a directory" path
  | isDirectory path => systemMessage 21 "Is a directory" path
  | nameTooLong path => systemMessage 36 "File name too long" path
  | nullCharacter => "embedded null byte"
  | undecodable fault => fault.message
  | unencodable => "character not in the encoding"
  | refused message => message
  | unknownEncoding name => "unknown encoding: ".toList ++ name
  | binaryEncoding name =>
    '\'' :: name
      ++ "' is not a text encoding; use codecs.open() to handle arbitrary codecs".toList

def code : FileFault → Text
  | missing _ => "FileNotFoundError"
  | occupied _ => "FileExistsError"
  | notDirectory _ => "NotADirectoryError"
  | isDirectory _ => "IsADirectoryError"
  | nameTooLong _ => "OSError"
  | nullCharacter => "ValueError"
  | undecodable _ => "UnicodeDecodeError"
  | unencodable => "UnicodeEncodeError"
  | refused _ => "UnicodeError"
  | unknownEncoding _ => "LookupError"
  | binaryEncoding _ => "LookupError"

def isSystem : FileFault → Bool
  | missing _ => true
  | occupied _ => true
  | notDirectory _ => true
  | isDirectory _ => true
  | nameTooLong _ => true
  | _ => false

def ofDecode : DecodeError → FileFault
  | .undecodable fault => undecodable fault
  | .refused message => refused message

def ofEncode : EncodeError → FileFault
  | .unencodable => unencodable
  | .refused message => refused message

end FileFault
end Inlay
