import Inlay.Config.Layers
import Inlay.Proofs.Config.Form

set_option autoImplicit false

namespace Inlay

open Text

namespace TextRule

def Allows : TextRule → Text → Prop
  | ofForm form, text => form.admits text = true
  | nonEmpty, text => text ≠ []
  | oneOf choices, text => text ∈ choices

theorem fault?_eq_none_iff (rule : TextRule) (text : Text) :
    rule.fault? (.scalar (.text text)) = none ↔ rule.Allows text := by
  cases rule with
  | ofForm form =>
    simp only [fault?, Value.asText?, Allows]
    split <;> simp_all only [reduceCtorEq]
  | nonEmpty =>
    simp only [fault?, Value.asText?, Allows]
    split <;> simp_all only [reduceCtorEq, ne_eq, not_true, not_false_eq_true]
  | oneOf choices =>
    simp only [fault?, Value.asText?, Allows, Option.any_some, List.contains_iff_mem]
    split <;> simp_all only [reduceCtorEq]

end TextRule

namespace Schema

inductive Accepts : Schema → Value → Prop
  | text {rules : List TextRule} {text : Text} (allowed : ∀ rule ∈ rules, rule.Allows text) :
      Accepts (.text rules) (.text text)
  | mapping {required : List Text} {closed : Bool} {properties : List (Text × Schema)}
      {entries : Mapping} (complete : ∀ key ∈ required, Mapping.contains entries (.text key) = true)
      (known : closed = true → extras entries properties = [])
      (each : ∀ name schema, (name, schema) ∈ properties → ∀ value,
        Mapping.get? entries (.text name) = some value → Accepts schema value) :
      Accepts (.mapping required closed properties) (.map entries)

mutual

theorem issuesAt_eq_nil_iff (place : List Text) (value : Value) :
    ∀ schema : Schema, issuesAt place value schema = [] ↔ schema.Accepts value
  | text rules => by
    rw [issuesAt, List.map_eq_nil_iff, List.append_eq_nil_iff, List.filterMap_eq_nil_iff]
    constructor
    next =>
      rintro ⟨isText, faultless⟩
      match value with
      | .scalar (.text words) =>
        exact .text fun rule member => (rule.fault?_eq_none_iff words).1 (faultless rule member)
    next =>
      rintro ⟨allowed⟩
      exact ⟨rfl, fun rule member => (rule.fault?_eq_none_iff _).2 (allowed rule member)⟩
  | mapping required closed properties => by
    match value with
    | .map entries =>
      have each := propertyIssues_eq_nil_iff place entries properties
      have noExtra : (match closed, extras entries properties with
          | true, key :: keys =>
            [(⟨place, extraMessage (key :: keys), (key :: keys).all Scalar.isLegible⟩ : Issue)]
          | _, _ => []) = [] ↔ (closed = true → extras entries properties = []) := by
        cases closed <;> cases extras entries properties <;> simp
      simp only [issuesAt, List.append_eq_nil_iff, List.map_eq_nil_iff, List.filter_eq_nil_iff,
        each]
      constructor
      next =>
        rintro ⟨⟨complete, known⟩, each⟩
        exact .mapping (fun key member => by simpa using complete key member) (noExtra.1 known)
          each
      next =>
        intro accepted
        cases accepted with
        | mapping complete known each =>
          exact ⟨⟨fun key member => by simp [complete key member], noExtra.2 known⟩, each⟩
    | .scalar _ => exact ⟨nofun, nofun⟩
    | .list _ => exact ⟨nofun, nofun⟩
    | .pair _ _ => exact ⟨nofun, nofun⟩
    | .set _ => exact ⟨nofun, nofun⟩
    | .again _ => exact ⟨nofun, nofun⟩

theorem propertyIssues_eq_nil_iff (place : List Text) (entries : Mapping) :
    ∀ properties : List (Text × Schema), propertyIssues place entries properties = [] ↔
      ∀ name schema, (name, schema) ∈ properties → ∀ value,
        Mapping.get? entries (.text name) = some value → schema.Accepts value
  | [] => by simp [propertyIssues]
  | (name, schema) :: properties => by
    have here (value : Value) := issuesAt_eq_nil_iff (place ++ [name]) value schema
    have rest := propertyIssues_eq_nil_iff place entries properties
    rw [propertyIssues, List.append_eq_nil_iff, rest]
    constructor
    next =>
      rintro ⟨quiet, each⟩ other schema' member value found
      rcases List.mem_cons.1 member with same | later
      next =>
        cases same
        rw [found] at quiet
        exact (here value).1 quiet
      next => exact each other schema' later value found
    next =>
      intro each
      refine ⟨?_, fun other schema' later => each other schema' (List.mem_cons_of_mem _ later)⟩
      split
      next value found => exact (here value).2 (each name schema List.mem_cons_self value found)
      next => rfl

end

theorem validate_eq_ok_iff {schema : Schema} {value : Value} :
    schema.validate value = .ok () ↔ schema.Accepts value := by
  rw [← issuesAt_eq_nil_iff [], validate]
  have same : schema.issues value = [] ↔ schema.issuesAt [] value = [] := by
    rw [issues, ← List.length_eq_zero_iff, List.length_mergeSort, List.length_eq_zero_iff]
  rw [← same]
  split
  next quiet => simp [quiet]
  next loud => simpa using loud

variable {required : List Text} {closed : Bool} {properties : List (Text × Schema)}
variable {entries : Mapping} {key : Text} {rules : List TextRule}

theorem exists_get?_of_contains {key : Scalar} (present : Mapping.contains entries key = true) :
    ∃ value, Mapping.get? entries key = some value := by
  obtain ⟨entry, member, same⟩ := List.any_eq_true.1 present
  unfold Mapping.get?
  cases found : entries.find? fun entry => entry.1.same key with
  | some entry => exact ⟨entry.2, rfl⟩
  | none => exact absurd same (by simpa using List.find?_eq_none.1 found entry member)

theorem Accepts.exists_text (key : Text) (rules : List TextRule)
    (accepted : Accepts (.mapping required closed properties) (.map entries))
    (needed : key ∈ required) (ruled : (key, .text rules) ∈ properties) :
    ∃ text, Mapping.get? entries (.text key) = some (.text text) ∧
      ∀ rule ∈ rules, rule.Allows text := by
  cases accepted with
  | mapping complete known each =>
    obtain ⟨value, found⟩ := exists_get?_of_contains (complete key needed)
    cases each key _ ruled value found with
    | text allowed => exact ⟨_, found, allowed⟩

theorem Accepts.text_of_get? {value : Value}
    (accepted : Accepts (.mapping required closed properties) (.map entries))
    (ruled : (key, .text rules) ∈ properties)
    (found : Mapping.get? entries (.text key) = some value) :
    ∃ text, value = .text text ∧ ∀ rule ∈ rules, rule.Allows text := by
  cases accepted with
  | mapping complete known each =>
    cases each key _ ruled value found with
    | text allowed => exact ⟨_, rfl, allowed⟩

theorem Accepts.exists_map {value : Value}
    (accepted : Accepts (.mapping required closed properties) value) :
    ∃ entries, value = .map entries := by
  cases accepted
  exact ⟨_, rfl⟩

theorem Accepts.exists_section {required' : List Text} {closed' : Bool}
    {properties' : List (Text × Schema)}
    (accepted : Accepts (.mapping required closed properties) (.map entries))
    (ruled : (key, .mapping required' closed' properties') ∈ properties)
    (needed : key ∈ required ∨ required' = []) :
    ∃ inner, section? entries key = .ok inner ∧
      Accepts (.mapping required' closed' properties') (.map inner) := by
  cases accepted with
  | mapping complete known each =>
    unfold section?
    cases found : Mapping.get? entries (.text key) with
    | some value =>
      obtain ⟨inner, rfl⟩ := (each key _ ruled value found).exists_map
      exact ⟨inner, rfl, each key _ ruled _ found⟩
    | none =>
      rcases needed with needed | rfl
      next =>
        obtain ⟨value, there⟩ := exists_get?_of_contains (complete key needed)
        rw [found] at there
        cases there
      next => exact ⟨[], rfl, .mapping (by simp) (fun _ => rfl) (by simp [Mapping.get?])⟩

end Schema

namespace Settings

structure IsProper (settings : Settings) : Prop where
  hostSuffix : Form.suffix.Describes settings.hostSuffix
  blockSuffix : Form.doubleSuffix.Describes settings.blockSuffix
  templateTag : Form.tagName.Describes settings.templateTag
  encoding : settings.encoding ≠ []
  logLevel : settings.logLevel ∈ Level.all.map Level.name

structure MayEndLines (settings proper : Settings) : Prop where
  hostSuffix : settings.hostSuffix = proper.hostSuffix ∨
    settings.hostSuffix = proper.hostSuffix ++ ['\n']
  blockSuffix : settings.blockSuffix = proper.blockSuffix ∨
    settings.blockSuffix = proper.blockSuffix ++ ['\n']
  templateTag : settings.templateTag = proper.templateTag ∨
    settings.templateTag = proper.templateTag ++ ['\n']
  encoding : settings.encoding = proper.encoding
  logLevel : settings.logLevel = proper.logLevel

variable {settings proper : Settings} {config : Mapping}

theorem MayEndLines.isProper_iff (may : MayEndLines settings proper) (wellFormed : proper.IsProper) :
    settings.IsProper ↔ settings = proper := by
  constructor
  next =>
    intro isProper
    have host := may.hostSuffix.resolve_right (Form.not_endsInLine isProper.hostSuffix _)
    have block := may.blockSuffix.resolve_right (Form.not_endsInLine isProper.blockSuffix _)
    have tag := may.templateTag.resolve_right (Form.not_endsInLine isProper.templateTag _)
    obtain ⟨-, -, -, encoding, level⟩ := may
    cases settings
    cases proper
    simp_all only
  next => exact fun same => same ▸ wellFormed

theorem upper_level {level : Text} (isName : level ∈ Level.all.map Level.name) :
    upper level = level := by
  revert level
  decide +kernel

end Settings

namespace SettingValues

variable {config engine logging : Mapping} {host block tag encoding level : Text}

theorem ofConfig_of_texts (engineIs : section? config "xblock" = .ok engine)
    (loggingIs : section? config "logging" = .ok logging)
    (hostIs : engine.get? "host_suffix" = some (.text host))
    (blockIs : engine.get? "block_suffix" = some (.text block))
    (tagIs : engine.get? "template_tag" = some (.text tag))
    (encodingIs : engine.get? "encoding" = some (.text encoding))
    (levelIs : (logging.get? "level").getD (.text "WARNING") = .text level) :
    ofConfig config =
      .ok ⟨.text host, .text block, .text tag, .text encoding, upper level⟩ := by
  have legible : (Value.text level).isLegible = true := rfl
  simp only [ofConfig, engineIs, loggingIs, bind, Except.bind, hostIs, blockIs, tagIs, encodingIs,
    levelIs, legible, Option.getD_some]
  rfl

theorem exists_level (accepted : Schema.Accepts (.mapping [] true
      [("level", .text [.oneOf ["DEBUG", "INFO", "WARNING", "ERROR", "CRITICAL"]])])
      (.map logging)) :
    ∃ level, (logging.get? "level").getD (.text "WARNING") = .text level ∧
      level ∈ Level.all.map Level.name := by
  cases found : logging.get? "level" with
  | none => exact ⟨"WARNING", rfl, by decide⟩
  | some value =>
    obtain ⟨level, rfl, allowed⟩ := accepted.text_of_get? List.mem_cons_self found
    exact ⟨level, rfl, allowed _ List.mem_cons_self⟩

theorem ofConfig_of_accepts (accepted : configSchema.Accepts (.map config)) :
    ∃ values settings proper, ofConfig config = .ok values ∧ values.settings? = some settings ∧
      proper.IsProper ∧ settings.MayEndLines proper := by
  obtain ⟨engine, engineIs, engineAccepted⟩ :=
    accepted.exists_section (List.mem_cons_self) (.inl (List.mem_singleton_self _))
  obtain ⟨logging, loggingIs, loggingAccepted⟩ :=
    accepted.exists_section (List.mem_cons_of_mem _ List.mem_cons_self) (.inr rfl)
  obtain ⟨host, hostIs, hostAllowed⟩ :=
    engineAccepted.exists_text "host_suffix" [.ofForm .suffix] (by simp) (by simp)
  obtain ⟨block, blockIs, blockAllowed⟩ :=
    engineAccepted.exists_text "block_suffix" [.ofForm .doubleSuffix] (by simp) (by simp)
  obtain ⟨tag, tagIs, tagAllowed⟩ :=
    engineAccepted.exists_text "template_tag" [.ofForm .tagName] (by simp) (by simp)
  obtain ⟨encoding, encodingIs, encodingAllowed⟩ :=
    engineAccepted.exists_text "encoding" [.nonEmpty] (by simp) (by simp)
  obtain ⟨level, levelIs, isName⟩ := exists_level loggingAccepted
  obtain ⟨properHost, hostDescribed, hostMay⟩ :=
    Form.admits_iff.1 (hostAllowed _ List.mem_cons_self)
  obtain ⟨properBlock, blockDescribed, blockMay⟩ :=
    Form.admits_iff.1 (blockAllowed _ List.mem_cons_self)
  obtain ⟨properTag, tagDescribed, tagMay⟩ :=
    Form.admits_iff.1 (tagAllowed _ List.mem_cons_self)
  refine ⟨_, ⟨host, block, tag, encoding, level⟩,
    ⟨properHost, properBlock, properTag, encoding, level⟩,
    ofConfig_of_texts engineIs loggingIs hostIs blockIs tagIs encodingIs levelIs, ?_,
    ⟨hostDescribed, blockDescribed, tagDescribed, encodingAllowed _ List.mem_cons_self, isName⟩,
    ⟨hostMay, blockMay, tagMay, rfl, rfl⟩⟩
  rw [Settings.upper_level isName]
  rfl

end SettingValues

/-- A valid value is a configuration with settings, all of them texts. They are proper up to line
ends behind the suffixes and the tag, and without line ends they are proper. -/
theorem settings_of_valid {value : Value} (valid : configSchema.validate value = .ok ()) :
    ∃ config values settings proper, value = .map config ∧
      SettingValues.ofConfig config = .ok values ∧ values.settings? = some settings ∧
      Settings.ofConfig config = settings ∧ proper.IsProper ∧ settings.MayEndLines proper ∧
      (settings.IsProper ↔ settings = proper) := by
  have accepted := Schema.validate_eq_ok_iff.1 valid
  obtain ⟨config, rfl⟩ := accepted.exists_map
  obtain ⟨values, settings, proper, found, texts, isProper, may⟩ :=
    SettingValues.ofConfig_of_accepts accepted
  refine ⟨config, values, settings, proper, rfl, found, texts, ?_, isProper, may,
    may.isProper_iff isProper⟩
  rw [Settings.ofConfig, found]
  exact congrArg (·.getD {}) texts

-- The defaults, with a suffix of documents in place of theirs.
def suffixConfig (suffix : Text) : Mapping :=
  [("xblock", .map [("host_suffix", .text suffix), ("block_suffix", .text ".svelte.xblock"),
     ("template_tag", .text "template"), ("encoding", .text "utf-8")]),
   ("logging", .map [("level", .text "WARNING")])]

theorem settings_of_valid_page :
    configSchema.validate (.map (suffixConfig ".page")) = .ok () ∧
      ∃ config values settings proper, .map (suffixConfig ".page") = Value.map config ∧
        SettingValues.ofConfig config = .ok values ∧ values.settings? = some settings ∧
        Settings.ofConfig config = settings ∧ proper.IsProper ∧ settings.MayEndLines proper ∧
        (settings.IsProper ↔ settings = proper) := by
  have valid : configSchema.validate (.map (suffixConfig ".page")) = .ok () := by decide +kernel
  exact ⟨valid, settings_of_valid valid⟩

theorem settings_of_valid_not_proper :
    let config := suffixConfig ".page\n"
    configSchema.validate (.map config) = .ok () ∧
      ∃ values settings, SettingValues.ofConfig config = .ok values ∧
        values.settings? = some settings ∧ settings.hostSuffix = ".page\n".toList ∧
        ¬ settings.IsProper := by
  intro config
  refine ⟨by decide +kernel, _, _, rfl, rfl, rfl, ?_⟩
  exact fun proper => Form.not_endsInLine proper.hostSuffix ".page" rfl

end Inlay
