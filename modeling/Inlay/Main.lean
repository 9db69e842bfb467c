import Inlay.Command.Run

set_option autoImplicit false

namespace Inlay

open Text

structure Scope where
  path : Text
  isTree : Bool
  deriving Repr, DecidableEq

def Surroundings.scopes (surroundings : Surroundings) (isTree : Bool) (text : Text) : List Scope :=
  match surroundings.path text with
  | .ok path => [⟨path, isTree⟩]
  | .error _ => []

def Command.scopes (surroundings : Surroundings) : Command → List Scope
  | .build source output? =>
    surroundings.scopes true source ++ output?.toList.flatMap (surroundings.scopes true)
  | .inspect block => [⟨Path.joinTexts surroundings.directory (Path.tidy block), false⟩]
  | .transform host => surroundings.scopes false host

def Invocation.configScopes (surroundings : Surroundings) (invocation : Invocation) : List Scope :=
  match surroundings.path (invocation.projectRoot?.getD []) with
  | .ok root => Config.fileNames.map fun name => ⟨Path.joinTexts root name, false⟩
  | .error _ => []

def scopesOf (surroundings : Surroundings) (arguments : List Text) : List Scope :=
  match Invocation.read arguments with
  | .ok invocation =>
    ⟨surroundings.directory, false⟩ :: invocation.configScopes surroundings
      ++ invocation.command.scopes surroundings
  | .error _ => []

namespace Program

def entryOf (place : Place) : IO.FS.DirEntry :=
  { root := "/", fileName := String.ofList (join ['/'] place) }

def entryAt? (place : Place) : IO (Option Entry) := do
  let path := (entryOf place).path
  if ← path.isDir then return some .directory
  try
    return some (.file (← IO.FS.readBinFile path).toList)
  catch _ => return none

def copy (workspace : Workspace) (place : Place) : IO Workspace := do
  match ← entryAt? place with
  | some entry => return workspace.put place entry
  | none => return workspace

partial def copyBelow (workspace : Workspace) (place : Place) : IO Workspace := do
  let path := (entryOf place).path
  unless ← path.isDir do return workspace
  let mut workspace := workspace
  for entry in ← path.readDir do
    let inner := place ++ [entry.fileName.toList]
    workspace ← copy workspace inner
    if (← entry.path.symlinkMetadata).type == .dir then
      workspace ← copyBelow workspace inner
  return workspace

def copyScope (workspace : Workspace) (scope : Scope) : IO Workspace := do
  let mut workspace := workspace
  let mut place : Place := []
  for component in Workspace.componentsOf scope.path do
    place := if component = ['.', '.'] then place.dropLast else place ++ [component]
    unless place = [] do
      workspace ← copy workspace place
  if scope.isTree then copyBelow workspace place else return workspace

def textOf (path : String) : IO Text := do
  let bytes ← try IO.FS.readBinFile path catch _ => pure ByteArray.empty
  return ((String.fromUTF8? bytes).getD "").toList

def environment : IO Environment := do
  return (splitAt (Char.ofNat 0) (← textOf "/proc/self/environ")).filterMap fun text =>
    match text.span (· != '=') with
    | (name, _ :: value) => some (name, value)
    | (_, []) => none

def accounts : IO Accounts := do
  let entries := (splitAt '\n' (← textOf "/etc/passwd")).filterMap fun line =>
    match splitAt ':' line with
    | [name, _, number, _, _, home, _] => some (name, number, home)
    | _ => none
  let status := splitAt '\n' (← textOf "/proc/self/status")
  let number := (status.findSome? fun line => after? "Uid:\t" line).getD []
  let own := entries.find? fun entry => entry.2.1 == number.takeWhile isDigit
  return ⟨(own.map (·.1)).getD [], entries.map fun entry => (entry.1, entry.2.2)⟩

partial def run (surroundings : Surroundings) (copied : List Text) (arguments : List Text) :
    IO (Surroundings × Outcome) := do
  let outcome := runArguments surroundings arguments
  match (outcome.reads.filter fun path => !copied.contains path).eraseDups with
  | [] => return (surroundings, outcome)
  | missing =>
    let mut workspace := surroundings.workspace
    for path in missing do
      workspace ← copyScope workspace ⟨path, false⟩
    run { surroundings with workspace } (copied ++ missing) arguments

def restore (start now : Workspace) : IO Unit := do
  for (place, entry) in now.entries do
    unless start.get? place = some entry do
      let path := (entryOf place).path
      match entry with
      | .directory => IO.FS.createDirAll path
      | .file bytes => IO.FS.writeBinFile path ⟨bytes.toArray⟩

end Program
end Inlay

open Inlay in
def main (arguments : List String) : IO UInt32 := do
  let arguments := arguments.map String.toList
  let directory := (← IO.currentDir).toString.toList
  let nothing : Surroundings := ⟨{}, directory, ← Program.environment, ← Program.accounts⟩
  let mut workspace : Workspace := {}
  for scope in scopesOf nothing arguments do
    workspace ← Program.copyScope workspace scope
  let start := { nothing with workspace }
  let (surroundings, outcome) ← Program.run start [] arguments
  Program.restore surroundings.workspace outcome.workspace
  (← IO.getStdout).putStr (String.ofList outcome.output)
  (← IO.getStderr).putStr (String.ofList outcome.errors)
  match outcome.ending with
  | .ok status => return status.toUInt32
  | .error crash =>
    (← IO.getStderr).putStr (String.ofList (Console.line crash.message))
    return 1
