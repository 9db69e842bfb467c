import Inlay.Config.Environment
import Inlay.Config.Settings
import Inlay.Config.Source

set_option autoImplicit false

namespace Inlay

open Text

inductive ConfigFault
  | source (fault : SourceFault)
  | number (fault : NumberFault)
  | refused (failure : Failure)
  | illegible
  deriving Repr, DecidableEq

namespace Config

def textEntries (entries : List (String × String)) : Mapping :=
  entries.map fun (key, value) => (.text key, .text value)

def defaults : Mapping :=
  [("xblock", .map (textEntries
      [("host_suffix", ".svelte"), ("block_suffix", ".svelte.xblock"),
       ("template_tag", "template"), ("encoding", "utf-8")])),
   ("logging", .map (textEntries [("level", "WARNING")]))]

def fileNames : List Text :=
  ["xblock.yaml", "xblock.yml"]

def raiseLevel (config : Mapping) : Mapping :=
  match config.get? "logging" with
  | some (.map logging) =>
    match Mapping.get? logging "level" with
    | some (.scalar (.text level)) =>
      config.insert "logging" (.map (Mapping.insert logging "level" (.text (upper level))))
    | _ => config
  | _ => config

def layered (project : Mapping) (environment : Environment) :
    Journal × Except NumberFault Mapping :=
  let (journal, overrides) := environment.overrides
  (journal, overrides.map fun overrides =>
    raiseLevel (Mapping.over (Mapping.over defaults project) overrides))

def firstOf (workspace : Workspace) : List Text → Except FileFault (Option Text)
  | [] => .ok none
  | path :: paths => do
    if ← workspace.has path then return some path else firstOf workspace paths

def file? (workspace : Workspace) (root : Text) : Except FileFault (Option Text) :=
  firstOf workspace (fileNames.map (Path.joinTexts root))

def project (workspace : Workspace) (root : Text) (paths : List (List Text)) :
    Journal × Except ConfigFault Mapping :=
  match file? workspace root with
  | .error fault => ([], .error (.source (.file fault)))
  | .ok none => ([], .ok [])
  | .ok (some path) =>
    match Source.readOr workspace path (.map []) paths with
    | .error fault => ([], .error (.source fault))
    | .ok (.map entries) => ([.configLoaded path], .ok entries)
    | .ok _ => ([], .error (.refused (.notMapping path)))

def load (workspace : Workspace) (root : Text) (environment : Environment) :
    Journal × Except ConfigFault Mapping :=
  match project workspace root environment.paths with
  | (journal, .error fault) => (journal, .error fault)
  | (journal, .ok entries) =>
    let (noted, config) := layered entries environment
    (journal ++ noted, config.mapError .number)

def validated (config : Mapping) : Except ConfigFault Mapping :=
  match configSchema.validate (.map config) with
  | .ok () => .ok config
  | .error (.invalid issues) => .error (.refused (.invalidConfig issues))
  | .error .illegible => .error .illegible

def loadValid (workspace : Workspace) (root : Text) (environment : Environment) :
    Journal × Except ConfigFault Mapping :=
  let (journal, config) := load workspace root environment
  (journal, config.bind validated)

end Config

def Settings.ofConfig (config : Mapping) : Settings :=
  match SettingValues.ofConfig config with
  | .ok values => values.settings?.getD {}
  | .error _ => {}

def Settings.load (workspace : Workspace) (root : Text) (environment : Environment) :
    Journal × Except ConfigFault Settings :=
  let (journal, config) := Config.loadValid workspace root environment
  (journal, config.map Settings.ofConfig)

end Inlay
