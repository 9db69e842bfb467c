import Inlay.Build.Tree
import Inlay.Command.Invocation
import Inlay.Config.Environment
import Inlay.Config.Layers
import Inlay.Failure

set_option autoImplicit false

namespace Inlay

open Text

inductive Crash
  | source (fault : SourceFault)
  | number (fault : NumberFault)
  | file (fault : FileFault)
  | pattern (suffix : Text)
  | illegible
  | emptyOperand
  | home (fault : HomeFault)
  deriving Repr, DecidableEq

namespace Crash

def message : Crash → Text
  | .source (.file fault) => fault.message
  | .source (.document fault) => fault.message
  | .number fault => "not a whole number: ".toList ++ quoted fault.text
  | .file fault => fault.message
  | .pattern suffix => "not a host suffix: ".toList ++ quoted suffix
  | .illegible => "a number in the configuration is too long"
  | .emptyOperand => "an operand has no text"
  | .home (.unknown name) => "no home for ".toList ++ quoted name
  | .home .nullCharacter => FileFault.nullCharacter.message

end Crash

structure Surroundings where
  workspace : Workspace
  directory : Text
  environment : Environment
  accounts : Accounts

def Surroundings.path (surroundings : Surroundings) (text : Text) : Except Crash Text :=
  match surroundings.accounts.expand surroundings.environment text with
  | .error fault => .error (.home fault)
  | .ok text =>
    if text.contains (Char.ofNat 0) then .error (.file .nullCharacter)
    else .ok (Path.actual (Path.joinTexts surroundings.directory text))

structure Outcome where
  workspace : Workspace
  output : Text := []
  errors : Text := []
  reads : List Text := []
  ending : Except Crash Nat

namespace Command

structure Running where
  surroundings : Surroundings
  console : Console
  verbose : Bool
  log : Text := []

inductive Trouble
  | crash (crash : Crash)
  | complaint (complaint : Complaint)

namespace Trouble

def ofFile (fault : FileFault) : Trouble :=
  if fault.isSystem then .complaint ⟨fault.message, none⟩ else .crash (.file fault)

def ofRead (fault : FileFault) : Trouble :=
  if Build.isReported fault then .complaint ⟨fault.message, none⟩ else .crash (.file fault)

def ofConfig (ofFault : FileFault → Trouble) (fault : ConfigFault) : Trouble :=
  match fault with
  | .refused failure => .complaint failure.complaint
  | .source (.file fault) => ofFault fault
  | .source fault => .crash (.source fault)
  | .number fault => .crash (.number fault)
  | .illegible => .crash .illegible

end Trouble

def Running.record (running : Running) (level : Level) (journal : Journal) : Running :=
  { running with log := running.log ++ (journal.lines level).flatMap Console.line }

def Running.firstLevel (running : Running) : Level :=
  if running.verbose then .debug else .warning

def Running.levelOf (running : Running) (settings : Settings) : Level :=
  if running.verbose then .debug else (Level.ofName? settings.logLevel).getD .warning

def Running.path (running : Running) (text : Text) : Except Trouble Text :=
  (running.surroundings.path text).mapError .crash

def Running.projectRoot (running : Running) (projectRoot? : Option Text) : Except Trouble Text :=
  match projectRoot? with
  | some text => running.path text
  | none => .ok running.surroundings.directory

def Running.load (running : Running) (projectRoot? : Option Text)
    (ofFault : FileFault → Trouble) : Running × Except Trouble Settings :=
  match running.projectRoot projectRoot? with
  | .error trouble => (running, .error trouble)
  | .ok root =>
    let place := running.surroundings
    let (journal, settings) := Settings.load place.workspace root place.environment
    (running.record running.firstLevel journal, settings.mapError (Trouble.ofConfig ofFault))

def Running.finish (running : Running) (output : Text) : Outcome :=
  { workspace := running.surroundings.workspace, output, errors := running.log, ending := .ok 0 }

def Running.giveUp (running : Running) (code : Text) : Trouble → Outcome
  | .crash crash =>
    { workspace := running.surroundings.workspace, errors := running.log, ending := .error crash }
  | .complaint complaint =>
    { workspace := running.surroundings.workspace
      errors := running.log ++ running.console.error code [] complaint
      ending := .ok 1 }

def blockFields (shown : Text) (block : Markup.Block) : List (Text × Json) :=
  let segment (segment : Markup.Segment) : Json :=
    .object [("attrs", segment.attrs), ("content", segment.content)]
  [("block", shown), ("scripts", .list (block.scripts.map segment)),
   ("styles", .list (block.styles.map segment)), ("template", block.template),
   ("variables",
     .list ((sortedSet (Script.declaredNamesOf block.scripts)).map Json.text))]

def segmentLines (title tag : Text) (segments : List Markup.Segment) : List Text :=
  ("  ".toList ++ title ++ [':', ' '] ++ ofNat segments.length) ::
    segments.map fun segment =>
      "    - <".toList ++ tag ++ (if segment.attrs = [] then [] else ' ' :: segment.attrs) ++ ['>']

def blockText (shown : Text) (block : Markup.Block) : Text :=
  let names := sortedSet (Script.declaredNamesOf block.scripts)
  let shownNames : Text := if names = [] then "(none)" else join [',', ' '] names
  (["Block: ".toList ++ shown] ++ segmentLines "scripts" "script" block.scripts
    ++ segmentLines "styles" "style" block.styles
    ++ ["  variables: ".toList ++ shownNames, "  template:"]
    ++ (Text.lines block.template).map fun line => "    ".toList ++ line).flatMap Console.line

def runInspect (running : Running) (projectRoot? : Option Text) (block : Text) : Outcome :=
  match running.load projectRoot? .ofRead with
  | (running, .error trouble) => running.giveUp "inspect_error" trouble
  | (running, .ok settings) =>
    let place := running.surroundings
    let shown := Path.tidy block
    match place.workspace.readText settings.encoding shown (Path.joinTexts place.directory shown) with
    | .error fault => running.giveUp "inspect_error" (.ofRead fault)
    | .ok text =>
      let parsed := Markup.Block.parse settings.templateTag text
      running.finish <|
        if running.console.asJson then running.console.document (.object (blockFields block parsed))
        else blockText block parsed

def transformWith (running : Running) (settings : Settings) (host : Text) :
    Running × List Text × Except Trouble Text :=
  let place := running.surroundings
  match place.workspace.readText settings.encoding host host with
  | .error fault => (running, [], .error (.ofRead fault))
  | .ok text =>
    let start : Session := { settings := settings }
    let (session, result) :=
      start.transform (place.workspace.reader settings.encoding) host text
    let running := running.record (running.levelOf settings) session.journal
    let printed := result.map fun code? =>
      let code : Text := code?.getD text
      if running.console.asJson then
        running.console.document (.object
          [("host", .text host), ("changed", .bool code?.isSome), ("code", .text code)])
      else Console.line code
    (running, session.journal.reads,
      printed.mapError fun failure => .complaint failure.complaint)

def runTransform (running : Running) (projectRoot? : Option Text) (host : Text) : Outcome :=
  match running.load projectRoot? .ofRead with
  | (running, .error trouble) => running.giveUp "transform_error" trouble
  | (running, .ok settings) =>
    match running.path host with
    | .error trouble => running.giveUp "transform_error" trouble
    | .ok host =>
      match transformWith running settings host with
      | (running, reads, .error trouble) =>
        { running.giveUp "transform_error" trouble with reads }
      | (running, reads, .ok printed) => { running.finish printed with reads }

def showReport (running : Running) (report : Report) : Outcome :=
  let console := running.console
  if report.ok then
    let message := "Transformed ".toList ++ ofNat report.transformed.length
      ++ " document(s), ".toList ++ ofNat report.unchanged.length ++ " unchanged".toList
    running.finish (console.success "success" message report.fields)
  else
    let failed : Outcome := { running.finish [] with ending := .ok 1 }
    if console.asJson then
      { failed with output := console.success "failed" [] report.fields }
    else
      { failed with
        errors := running.log ++ report.failures.flatMap fun (document, message) =>
          console.error "error" (document ++ [':', ' '] ++ message) ⟨message, none⟩ }

def buildPaths (running : Running) (source : Text) (output? : Option Text) :
    Except Trouble (Text × Text) := do
  let source ← running.path source
  match running.surroundings.workspace.hasDirectory source with
  | .error fault => throw (.ofFile fault)
  | .ok false =>
    throw (.complaint ⟨"Source directory not found: ".toList ++ source, none⟩)
  | .ok true =>
    match output? with
    | none => throw (.crash .emptyOperand)
    | some output => return (source, ← running.path output)

def runBuild (running : Running) (projectRoot? : Option Text) (source : Text)
    (output? : Option Text) : Outcome :=
  match running.load projectRoot? .ofFile with
  | (running, .error trouble) => running.giveUp "build_error" trouble
  | (running, .ok settings) =>
    match buildPaths running source output? with
    | .error trouble => running.giveUp "build_error" trouble
    | .ok (source, output) =>
      let start : Session := { settings := settings }
      let (workspace, session, result) :=
        buildTree running.surroundings.workspace start source output
      let running := { running with surroundings := { running.surroundings with workspace } }
      let running := running.record (running.levelOf settings) session.journal
      let ended :=
        match result with
        | .ok report => showReport running report
        | .error (.file fault) => running.giveUp "build_error" (.ofFile fault)
        | .error (.pattern suffix) => running.giveUp "build_error" (.crash (.pattern suffix))
      { ended with reads := session.journal.reads }

end Command

def Invocation.run (surroundings : Surroundings) (invocation : Invocation) : Outcome :=
  let running : Command.Running :=
    { surroundings, console := { asJson := invocation.json }, verbose := invocation.verbose }
  match invocation.command with
  | .build source output? => Command.runBuild running invocation.projectRoot? source output?
  | .inspect block => Command.runInspect running invocation.projectRoot? block
  | .transform host => Command.runTransform running invocation.projectRoot? host

def Stop.outcome (workspace : Workspace) : Stop → Outcome
  | .help grammar => { workspace, output := grammar.help, ending := .ok 0 }
  | .version => { workspace, output := Console.line Invocation.version, ending := .ok 0 }
  | .misuse grammar message =>
    { workspace
      errors := Console.line grammar.usage
        ++ Console.line (grammar.name ++ ": error: ".toList ++ message)
      ending := .ok 2 }

def runArguments (surroundings : Surroundings) (arguments : List Text) : Outcome :=
  match Invocation.read arguments with
  | .ok invocation => invocation.run surroundings
  | .error stop => stop.outcome surroundings.workspace

end Inlay
