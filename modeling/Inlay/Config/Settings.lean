import Inlay.Failure
import Inlay.Text.Basic
import Inlay.Text.Character
import Inlay.Value.Display

set_option autoImplicit false

namespace Inlay

open Text

structure Settings where
  hostSuffix : Text := ".svelte".toList
  blockSuffix : Text := ".svelte.xblock".toList
  templateTag : Text := "template".toList
  encoding : Text := "utf-8".toList
  logLevel : Text := "WARNING".toList
  deriving Repr, DecidableEq

structure Plugin where
  name : Text
  order : Text
  deriving Repr, DecidableEq

def plugin : Plugin :=
  ⟨"svelte-xblock", "pre"⟩

structure SettingValues where
  hostSuffix : Value
  blockSuffix : Value
  templateTag : Value
  encoding : Value
  logLevel : Text

inductive SettingsFault
  | notMapping (name : Text)
  | illegible
  deriving Repr, DecidableEq

def section? (config : Mapping) (name : Text) : Except SettingsFault Mapping :=
  match config.get? name with
  | none => .ok []
  | some (.map entries) => .ok entries
  | some value => if value.isEmpty then .ok [] else .error (.notMapping name)

namespace SettingValues

def ofConfig (config : Mapping) : Except SettingsFault SettingValues := do
  let base : Settings := {}
  let engine ← section? config "xblock"
  let logging ← section? config "logging"
  let valueOr (entries : Mapping) (key : Text) (missing : Text) : Value :=
    (entries.get? key).getD (.text missing)
  let level := valueOr logging "level" base.logLevel
  if !level.isLegible then throw .illegible
  return {
    hostSuffix := valueOr engine "host_suffix" base.hostSuffix
    blockSuffix := valueOr engine "block_suffix" base.blockSuffix
    templateTag := valueOr engine "template_tag" base.templateTag
    encoding := valueOr engine "encoding" base.encoding
    logLevel := upper level.display }

def settings? (values : SettingValues) : Option Settings := do
  return {
    hostSuffix := ← values.hostSuffix.asText?
    blockSuffix := ← values.blockSuffix.asText?
    templateTag := ← values.templateTag.asText?
    encoding := ← values.encoding.asText?
    logLevel := values.logLevel }

end SettingValues

inductive Form
  | suffix
  | doubleSuffix
  | tagName
  deriving Repr, DecidableEq

namespace Form

def isNameChar (c : Char) : Bool :=
  isAsciiLetter c || isAsciiDigit c || c == '_' || c == '-'

def isPart (p : Char → Bool) : Text → Bool
  | '.' :: c :: rest => p c && rest.all p
  | _ => false

def hasForm : Form → Text → Bool
  | suffix, text => isPart (fun c => isNameChar c || c == '.') text
  | doubleSuffix, '.' :: rest =>
    isPart isNameChar ('.' :: before '.' rest) && isPart isNameChar (rest.dropWhile (· != '.'))
  | doubleSuffix, _ => false
  | tagName, c :: rest =>
    isAsciiLetter c && rest.all fun c => isAsciiLetter c || isAsciiDigit c || c == '-'
  | tagName, [] => false

def admits (form : Form) (text : Text) : Bool :=
  form.hasForm (dropLineEnd text)

def pattern : Form → Text
  | suffix => "^\\.[A-Za-z0-9_.-]+$"
  | doubleSuffix => "^\\.[A-Za-z0-9_-]+\\.[A-Za-z0-9_-]+$"
  | tagName => "^[A-Za-z][A-Za-z0-9-]*$"

end Form

inductive TextRule
  | ofForm (form : Form)
  | nonEmpty
  | oneOf (choices : List Text)
  deriving Repr, DecidableEq

inductive SchemaFault
  | invalid (issues : List Issue)
  | illegible
  deriving Repr, DecidableEq

inductive Schema
  | text (rules : List TextRule)
  | mapping (required : List Text) (closed : Bool) (properties : List (Text × Schema))

namespace TextRule

def fault? (rule : TextRule) (value : Value) : Option Text :=
  match rule, value.asText? with
  | ofForm form, some text =>
    if form.admits text then none
    else some (quoted text ++ " does not match ".toList ++ quoted form.pattern)
  | nonEmpty, some text =>
    if text = [] then some (quoted text ++ " should be non-empty".toList) else none
  | oneOf choices, text? =>
    if text?.any choices.contains then none
    else some (value.quoted ++ " is not one of ".toList
      ++ (Value.list (choices.map Value.text)).quoted)
  | _, none => none

end TextRule

namespace Schema

def typeFault (value : Value) (kind : Text) : Text :=
  value.quoted ++ " is not of type ".toList ++ quoted kind

def extraMessage (extras : List Scalar) : Text :=
  let sorted := extras.mergeSort fun a b => Text.le a.display b.display
  "Additional properties are not allowed (".toList ++ join [',', ' '] (sorted.map Scalar.quoted)
    ++ (if sorted.length = 1 then " was" else " were").toList ++ " unexpected)".toList

def extras (entries : Mapping) (properties : List (Text × Schema)) : List Scalar :=
  (entries.map (·.1)).filter fun key => !properties.any fun (name, _) => key.same (.text name)

mutual

def issuesAt (place : List Text) (value : Value) : Schema → List Issue
  | text rules =>
    let type := if value.asText?.isSome then [] else [typeFault value "string"]
    (type ++ rules.filterMap fun rule => rule.fault? value).map (⟨place, ·, value.isLegible⟩)
  | mapping required closed properties =>
    match value with
    | .map entries =>
      let missing := required.filter fun key => !Mapping.contains entries (.text key)
      let extra :=
        match closed, extras entries properties with
        | true, key :: keys =>
          [⟨place, extraMessage (key :: keys), (key :: keys).all Scalar.isLegible⟩]
        | _, _ => []
      missing.map (fun key => ⟨place, quoted key ++ " is a required property".toList, true⟩)
        ++ extra ++ propertyIssues place entries properties
    | value => [⟨place, typeFault value "object", value.isLegible⟩]

def propertyIssues (place : List Text) (entries : Mapping) : List (Text × Schema) → List Issue
  | [] => []
  | (name, schema) :: properties =>
    (match Mapping.get? entries name with
      | some value => issuesAt (place ++ [name]) value schema
      | none => []) ++ propertyIssues place entries properties

end

def issues (schema : Schema) (value : Value) : List Issue :=
  (schema.issuesAt [] value).mergeSort fun a b => lexLe Text.le a.place b.place

def validate (schema : Schema) (value : Value) : Except SchemaFault Unit :=
  match schema.issues value with
  | [] => .ok ()
  | issues => .error (if issues.all Issue.isLegible then .invalid issues else .illegible)

end Schema

def configSchema : Schema :=
  .mapping ["xblock"] false
    [("xblock", .mapping ["host_suffix", "block_suffix", "template_tag", "encoding"] true
      [("host_suffix", .text [.ofForm .suffix]),
       ("block_suffix", .text [.ofForm .doubleSuffix]),
       ("template_tag", .text [.ofForm .tagName]),
       ("encoding", .text [.nonEmpty])]),
     ("logging", .mapping [] true
      [("level", .text [.oneOf ["DEBUG", "INFO", "WARNING", "ERROR", "CRITICAL"]])])]

end Inlay
