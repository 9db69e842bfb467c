import Inlay.Text.Basic
import Inlay.Workspace

set_option autoImplicit false

namespace Inlay

namespace Text

inductive GlobPiece
  | any
  | one
  | literal (c : Char)
  | set (negated : Bool) (ranges : List (Char × Char))
  deriving Repr, DecidableEq

abbrev Glob := List GlobPiece

namespace Glob

def ranges : Text → List (Char × Char)
  | [] => []
  | [c] => [(c, c)]
  | [c, d] => [(c, c), (d, d)]
  | c :: d :: e :: rest =>
    if d = '-' then (c, e) :: ranges rest else (c, c) :: ranges (d :: e :: rest)
termination_by text => text.length

def members? : Text → Option (Text × Text)
  | '!' :: ']' :: rest => (cut? [']'] rest).map fun (inside, rest) => ('!' :: ']' :: inside, rest)
  | ']' :: rest => (cut? [']'] rest).map fun (inside, rest) => (']' :: inside, rest)
  | text => cut? [']'] text

def setOf : Text → GlobPiece
  | '!' :: members => .set true (ranges members)
  | members => .set false (ranges members)

def ofText : Text → Glob
  | [] => []
  | c :: rest =>
    if c = '*' then .any :: ofText rest
    else if c = '?' then .one :: ofText rest
    else if c = '[' then
      match members? rest with
      | some (members, left) =>
        if left.length < rest.length then setOf members :: ofText left
        else .literal c :: ofText rest
      | none => .literal c :: ofText rest
    else .literal c :: ofText rest
termination_by text => text.length

def accepts : Glob → Text → Bool
  | [], text => text.isEmpty
  | .any :: glob, [] => accepts glob []
  | .any :: glob, c :: text => accepts glob (c :: text) || accepts (.any :: glob) text
  | _ :: _, [] => false
  | .one :: glob, _ :: text => accepts glob text
  | .literal d :: glob, c :: text => c == d && accepts glob text
  | .set negated ranges :: glob, c :: text =>
    (ranges.any fun (low, high) => decide (low <= c) && decide (c <= high)) != negated
      && accepts glob text
termination_by glob text => (glob.length, text.length)

end Glob
end Text

open Text

structure Document where
  components : List Text
  deriving Repr, DecidableEq

namespace Document

def relative (document : Document) : Text :=
  join ['/'] document.components

def name (document : Document) : Text :=
  document.components.getLast?.getD []

end Document

/-- Two stars in a row may be all of a component only, and then they stand for directories. -/
def isBadPattern (component : Text) : Bool :=
  component != ['*', '*'] && (cut? ['*', '*'] component).isSome

def matchesSuffix (suffix name : Text) : Bool :=
  suffix != ['*'] && (Glob.ofText ('*' :: suffix)).accepts name && endsWith suffix name

def discover? (workspace : Workspace) (root suffix : Text) : Option (List Document) :=
  if (splitAt '/' ('*' :: suffix)).any isBadPattern then none
  else if suffix.contains '/' then some []
  else
    match workspace.locate root root with
    | .error _ => some []
    | .ok place =>
      let found := (workspace.filesBelow place).filter fun components =>
        matchesSuffix suffix (Document.name ⟨components⟩)
      some ((found.mergeSort (lexLe Text.le)).map Document.mk)

end Inlay
