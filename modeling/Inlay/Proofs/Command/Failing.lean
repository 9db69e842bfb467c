import Inlay.Command.Run
import Inlay.Proofs.Build.Faults
import Inlay.Proofs.Config.Loading

set_option autoImplicit false

namespace Inlay

open Text Workspace

inductive Failing
  | crash (crash : Crash)
  | complaint (complaint : Complaint)
  | report (report : Report)

def Surroundings.root (surroundings : Surroundings) : Option Text → Except Crash Text
  | some text => surroundings.path text
  | none => .ok surroundings.directory

inductive ConfigFault.Fails : Command → ConfigFault → Failing → Prop
  | refused {command : Command} (failure : Failure) :
      Fails command (.refused failure) (.complaint failure.complaint)
  | system {command : Command} {fault : FileFault} (system : fault.isSystem = true) :
      Fails command (.source (.file fault)) (.complaint ⟨fault.message, none⟩)
  | undecodableOfInspect {block : Text} (fault : DecodeFault) :
      Fails (.inspect block) (.source (.file (.undecodable fault))) (.complaint ⟨fault.message, none⟩)
  | undecodableOfTransform {host : Text} (fault : DecodeFault) :
      Fails (.transform host) (.source (.file (.undecodable fault))) (.complaint ⟨fault.message, none⟩)
  | undecodableOfBuild {source : Text} {output? : Option Text} (fault : DecodeFault) :
      Fails (.build source output?) (.source (.file (.undecodable fault)))
        (.crash (.file (.undecodable fault)))
  | document {command : Command} (fault : Yaml.Fault) :
      Fails command (.source (.document fault)) (.crash (.source (.document fault)))
  | number {command : Command} (fault : NumberFault) :
      Fails command (.number fault) (.crash (.number fault))
  | illegible {command : Command} : Fails command .illegible (.crash .illegible)

inductive Workspace.TextFails (workspace : Workspace) (encoding shown path : Text) : Failing → Prop
  | reported {fault : FileFault} (failed : workspace.readText encoding shown path = .error fault)
      (reported : Build.isReported fault = true) :
      TextFails workspace encoding shown path (.complaint ⟨fault.message, none⟩)
  | unreported {fault : FileFault} (unreported : workspace.Unreported encoding shown path fault) :
      TextFails workspace encoding shown path (.crash (.file fault))

structure Surroundings.PathsLead (surroundings : Surroundings) (source : Text) (output? : Option Text)
    (path target : Text) : Prop where
  source_path : surroundings.path source = .ok path
  directory : surroundings.workspace.hasDirectory path = .ok true
  output_path : output?.map surroundings.path = some (.ok target)

inductive Surroundings.PathsFail (surroundings : Surroundings) (source : Text) :
    Option Text → Failing → Prop
  | source {output? : Option Text} {crash : Crash} (failed : surroundings.path source = .error crash) :
      PathsFail surroundings source output? (.crash crash)
  | longSource {path : Text} {output? : Option Text} {fault : FileFault}
      (named : surroundings.path source = .ok path)
      (failed : surroundings.workspace.hasDirectory path = .error fault) :
      PathsFail surroundings source output? (.complaint ⟨fault.message, none⟩)
  | noSource {path : Text} {output? : Option Text} (named : surroundings.path source = .ok path)
      (missing : surroundings.workspace.hasDirectory path = .ok false) :
      PathsFail surroundings source output?
        (.complaint ⟨"Source directory not found: ".toList ++ path, none⟩)
  | noOutput {path : Text} (named : surroundings.path source = .ok path)
      (there : surroundings.workspace.hasDirectory path = .ok true) :
      PathsFail surroundings source none (.crash .emptyOperand)
  | output {output path : Text} {crash : Crash} (named : surroundings.path source = .ok path)
      (there : surroundings.workspace.hasDirectory path = .ok true)
      (failed : surroundings.path output = .error crash) :
      PathsFail surroundings source (some output) (.crash crash)

-- A build of a directory in a session of its own, as it begins.
def Surroundings.beginning (surroundings : Surroundings) (settings : Settings)
    (source output : Text) : Build where
  source := source
  output := output
  workspace := surroundings.workspace
  session := ({ settings } : Session).reset

inductive Command.Fails (surroundings : Surroundings) (settings : Settings) :
    Command → Failing → Prop
  | block {block : Text} {failing : Failing}
      (fails : surroundings.workspace.TextFails settings.encoding (Path.tidy block)
        (Path.joinTexts surroundings.directory (Path.tidy block)) failing) :
      Fails surroundings settings (.inspect block) failing
  | hostPath {host : Text} {crash : Crash} (failed : surroundings.path host = .error crash) :
      Fails surroundings settings (.transform host) (.crash crash)
  | host {host path : Text} {failing : Failing} (named : surroundings.path host = .ok path)
      (fails : surroundings.workspace.TextFails settings.encoding path path failing) :
      Fails surroundings settings (.transform host) failing
  | transform {host path text : Text} {failure : Failure} (named : surroundings.path host = .ok path)
      (read : surroundings.workspace.readText settings.encoding path path = .ok text)
      (failed : (Session.transform (surroundings.workspace.reader settings.encoding) { settings } path
        text).2 = .error failure) :
      Fails surroundings settings (.transform host) (.complaint failure.complaint)
  | paths {source : Text} {output? : Option Text} {failing : Failing}
      (fails : surroundings.PathsFail source output? failing) :
      Fails surroundings settings (.build source output?) failing
  | document {source path target : Text} {output? : Option Text} {documents : List Document}
      {fault : FileFault} (lead : surroundings.PathsLead source output? path target)
      (found : discover? surroundings.workspace path settings.hostSuffix = some documents)
      (stumbles : (surroundings.beginning settings path target).Stumbles documents fault) :
      Fails surroundings settings (.build source output?) (.crash (.file fault))
  -- No text is refused by the encodings that are written out.
  | unwritable {source path target : Text} {output? : Option Text} {fault : FileFault}
      (lead : surroundings.PathsLead source output? path target)
      (foreign : Codec.ofName? settings.encoding = none)
      (unwritable : Build.Unwritable surroundings.workspace settings.encoding fault)
      (stopped : (buildTree surroundings.workspace { settings } path target).2.2 = .error (.file fault)) :
      Fails surroundings settings (.build source output?) (.crash (.file fault))
  | stopped {source path target : Text} {output? : Option Text} {fault : FileFault}
      (lead : surroundings.PathsLead source output? path target)
      (stopped : (buildTree surroundings.workspace { settings } path target).2.2 = .error (.file fault))
      (system : fault.isSystem = true) :
      Fails surroundings settings (.build source output?) (.complaint ⟨fault.message, none⟩)
  | report {source path target : Text} {output? : Option Text} {report : Report}
      (lead : surroundings.PathsLead source output? path target)
      (built : (buildTree surroundings.workspace { settings } path target).2.2 = .ok report)
      (failed : report.ok = false) :
      Fails surroundings settings (.build source output?) (.report report)

inductive Invocation.Fails (surroundings : Surroundings) (invocation : Invocation) : Failing → Prop
  | root {crash : Crash} (failed : surroundings.root invocation.projectRoot? = .error crash) :
      Fails surroundings invocation (.crash crash)
  | config {root : Text} {fault : ConfigFault} {failing : Failing}
      (named : surroundings.root invocation.projectRoot? = .ok root)
      (failed : (Settings.load surroundings.workspace root surroundings.environment).2 = .error fault)
      (fails : fault.Fails invocation.command failing) : Fails surroundings invocation failing
  | command {root : Text} {settings : Settings} {failing : Failing}
      (named : surroundings.root invocation.projectRoot? = .ok root)
      (loaded : (Settings.load surroundings.workspace root surroundings.environment).2 = .ok settings)
      (fails : invocation.command.Fails surroundings settings failing) :
      Fails surroundings invocation failing

section Names

variable {surroundings : Surroundings} {text path : Text}

end Names

namespace Command

def Trouble.failing : Trouble → Failing
  | .crash cause => .crash cause
  | .complaint text => .complaint text

section Trouble

variable {command : Command} {fault : FileFault} {cause : ConfigFault} {failing : Failing}
variable {workspace : Workspace} {encoding shown path text : Text}

def ofFault : Command → FileFault → Trouble
  | .build _ _ => .ofFile
  | .inspect _ | .transform _ => .ofRead

end Trouble

section Failures

variable {surroundings : Surroundings} {invocation : Invocation} {failing : Failing} {root : Text}

end Failures

section Transform

variable {surroundings : Surroundings} {settings : Settings} {failing : Failing} {host path : Text}

end Transform

section Build

variable {surroundings : Surroundings} {settings : Settings} {failing : Failing}
variable {source path target : Text} {output? : Option Text}

end Build

end Command
end Inlay
