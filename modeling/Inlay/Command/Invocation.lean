import Inlay.Command.Grammar

set_option autoImplicit false

namespace Inlay

open Text

inductive Command
  | build (source : Text) (output? : Option Text)
  | inspect (block : Text)
  | transform (host : Text)
  deriving Repr, DecidableEq

structure Invocation where
  verbose : Bool
  json : Bool
  projectRoot? : Option Text
  command : Command
  deriving Repr, DecidableEq

namespace Invocation

def lines (texts : List String) : Text :=
  texts.flatMap fun text => text.toList ++ ['\n']

def helpFlag : Flag := ⟨.help, ["-h", "--help"], false⟩

def flagHelp : List String :=
  ["options:",
   "  -h, --help            show this help message and exit",
   "  --json                Output as JSON",
   "  --repo-root REPO_ROOT",
   "                        Project root used to locate xblock.yaml (default:",
   "                        current directory)"]

def mainGrammar : Grammar where
  name := "xblock"
  usage := "usage: xblock [-h] [--version] [--verbose] <command> ..."
  help := lines
    ["usage: xblock [-h] [--version] [--verbose] <command> ...",
     "",
     "xblock - merge single-use block fragments into host documents",
     "",
     "options:",
     "  -h, --help     show this help message and exit",
     "  --version      show program's version number and exit",
     "  --verbose, -v  Enable debug logging (sent to stderr)",
     "",
     "commands:",
     "  <command>",
     "    build        Merge block fragments into every host document under a",
     "                 directory",
     "    inspect      Show how a block fragment is split into scripts, styles and",
     "                 template",
     "    transform    Transform a single host document and print the result"]
  flags := [helpFlag, ⟨.version, ["--version"], false⟩, ⟨.verbose, ["--verbose", "-v"], false⟩]

def commandGrammar (name usage : String) (operands : List Text) (operandHelp : List String) :
    Grammar where
  name := "xblock ".toList ++ name.toList
  usage := usage.toList
  help := lines ([usage, "", "positional arguments:"] ++ operandHelp ++ [""] ++ flagHelp)
  flags := [helpFlag, ⟨.json, ["--json"], false⟩, ⟨.projectRoot, ["--repo-root"], true⟩]
  operands := operands

def buildGrammar : Grammar :=
  commandGrammar "build" "usage: xblock build [-h] [--json] [--repo-root REPO_ROOT] source output"
    ["source", "output"]
    ["  source                Source directory containing host documents",
     "  output                Output directory for transformed documents"]

def inspectGrammar : Grammar :=
  commandGrammar "inspect" "usage: xblock inspect [-h] [--json] [--repo-root REPO_ROOT] block"
    ["block"] ["  block                 Path to a block fragment"]

def transformGrammar : Grammar :=
  commandGrammar "transform" "usage: xblock transform [-h] [--json] [--repo-root REPO_ROOT] host"
    ["host"] ["  host                  Path to a host document"]

def version : Text := "xblock 1.0.0"

structure Known where
  name : Text
  grammar : Grammar
  command? : List (Option Text) → Option Command

def commands : List Known :=
  [⟨"build", buildGrammar, fun
      | [some source, output?] => some (.build source output?)
      | _ => none⟩,
   ⟨"inspect", inspectGrammar, fun
      | [some block] => some (.inspect block)
      | _ => none⟩,
   ⟨"transform", transformGrammar, fun
      | [some host] => some (.transform host)
      | _ => none⟩]

def readFront (parsed : Parsed) : List (Word × Text) → Except Stop (Parsed × List Text)
  | [] => .ok (parsed, [])
  | (word, text) :: rest =>
    match word with
    | .flag flag spelling attached? => do
      let (parsed, _) ← parsed.takeFlag mainGrammar flag spelling attached? []
      readFront parsed rest
    | .unknown text => readFront (parsed.addExtra text) rest
    | .operand _ => .ok (parsed, text :: rest.map (·.2))
    | .divider =>
      if rest = [] then .ok (parsed.addExtra text, []) else .ok (parsed, text :: rest.map (·.2))

def misuse {A : Type} (message : Text) : Except Stop A :=
  .error (.misuse mainGrammar message)

def refuseExtras (extras : List Text) : Except Stop Unit :=
  if extras = [] then .ok ()
  else misuse ("unrecognized arguments: ".toList ++ join [' '] extras)

def unknownCommand {A : Type} (name : Text) : Except Stop A :=
  misuse ("argument <command>: invalid choice: ".toList ++ quoted name ++ " (choose from ".toList
    ++ join [',', ' '] (commands.map fun known => quoted known.name) ++ [')'])

def read (arguments : List Text) : Except Stop Invocation := do
  let words ← mainGrammar.words arguments
  let (front, rest) ← readFront {} (words.zip arguments)
  match rest with
  | [] =>
    refuseExtras front.extras
    throw (.help mainGrammar)
  | name :: arguments =>
    match commands.find? fun known => known.name == name with
    | none => unknownCommand name
    | some known =>
      let parsed ← Parsed.read known.grammar arguments
      refuseExtras (front.extras ++ parsed.extras)
      match known.command? parsed.operands with
      | none => throw (.help known.grammar)
      | some command =>
        return {
          verbose := front.has .verbose
          json := parsed.has .json
          projectRoot? := (parsed.value? .projectRoot).filter fun text => text != []
          command }

end Invocation
end Inlay
