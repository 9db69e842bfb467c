import Inlay.Workspace
import Inlay.Yaml.Meaning

set_option autoImplicit false

namespace Inlay

open Text

inductive SourceFault
  | file (fault : FileFault)
  | document (fault : Yaml.Fault)
  deriving Repr, DecidableEq

namespace Source

def leastPiece : Nat := 8192

structure Pieces where
  pending : Bytes := []
  hasReturn : Bool := false
  count : Nat := 0
  lastBytes : Nat := 0
  lastCount : Nat := 0

namespace Pieces

def size (pieces : Pieces) : Nat :=
  let missing := Yaml.Stream.portion - pieces.count % Yaml.Stream.portion
  if pieces.lastBytes <= pieces.lastCount ∨ pieces.lastCount = 0 then leastPiece
  else max leastPiece (pieces.lastBytes * missing / pieces.lastCount)

def unify (hasReturn : Bool) (text : Text) : Text × Bool :=
  match text, hasReturn with
  | [], hasReturn => ([], hasReturn)
  | c :: text, hasReturn =>
    let whole := if hasReturn then '\r' :: c :: text else c :: text
    if whole.getLast? = some '\r' then (unifyLines whole.dropLast, true)
    else (unifyLines whole, false)

def decode (pieces : Pieces) (bytes : Bytes) : Text × Option DecodeFault :=
  match bytes with
  | [] =>
    match Utf8.decode pieces.pending with
    | .ok _ => (if pieces.hasReturn then ['\n'] else [], none)
    | .error fault => ([], some fault)
  | b :: rest =>
    let piece := (b :: rest).take pieces.size
    match Utf8.decodePart (pieces.pending ++ piece) with
    | .error fault => ([], some fault)
    | .ok (decoded, pending) =>
      let (text, hasReturn) := unify pieces.hasReturn decoded
      let next : Pieces :=
        ⟨pending, hasReturn, pieces.count + text.length, piece.length, text.length⟩
      let (more, fault?) := next.decode (rest.drop (pieces.size - 1))
      (text ++ more, fault?)
termination_by bytes.length
decreasing_by
  simp only [List.length_drop, List.length_cons]
  omega

end Pieces

def streamOf (bytes : Bytes) : Yaml.Stream :=
  let (text, fault?) := Pieces.decode {} bytes
  Yaml.Stream.ofText text (fault?.map Yaml.Fault.undecodable)

def ofBytes (bytes : Bytes) (paths : List (List Text) := []) :
    Except SourceFault (Option Value) :=
  match Yaml.read (streamOf bytes) paths with
  | .error (.undecodable fault) => .error (.file (.undecodable fault))
  | .error fault => .error (.document fault)
  | .ok value? => .ok value?

def read (workspace : Workspace) (path : Text) (paths : List (List Text) := []) :
    Except SourceFault (Option Value) :=
  match workspace.read path path with
  | .error fault => .error (.file fault)
  | .ok bytes => ofBytes bytes paths

def readOr (workspace : Workspace) (path : Text) (other : Value) (paths : List (List Text) := []) :
    Except SourceFault Value :=
  (read workspace path paths).map fun value? =>
    match value? with
    | none => other
    | some (.scalar .null) => other
    | some value => value

def readOrElse (workspace : Workspace) (path : Text) (other : Value) : Value :=
  match readOr workspace path other with
  | .ok value => value
  | .error _ => other

end Source
end Inlay
