import Inlay.Proofs.Build.Discovery
import Inlay.Proofs.Config.Priority
import Inlay.Proofs.Config.Validity
import Inlay.Proofs.Value.Regrouping
import Inlay.Proofs.Workspace.Fault

set_option autoImplicit false

namespace Inlay

open Text Workspace

variable {workspace : Workspace} {root path base text : Text} {environment : Environment}
variable {fault : FileFault}

namespace Config

end Config

namespace Settings

end Settings

namespace Environment

variable {values result : Mapping} {journal : Journal}
variable {bindings : List (Text × Text)}

theorem keyed_overrideAll (keyed : (Value.map values).Keyed Scalar.IsText)
    (read : (overrideAll values journal bindings).2 = .ok result) :
    (Value.map result).Keyed Scalar.IsText := by
  induction bindings generalizing values journal with
  | nil => cases read; exact keyed
  | cons binding bindings ih =>
    obtain ⟨name, text⟩ := binding
    unfold overrideAll override at read
    cases spelled : path? name with
    | none =>
      rw [spelled] at read
      exact ih keyed read
    | some path =>
      cases coerced : coerce text with
      | error fault => simp [spelled, coerced, Except.map] at read
      | ok value =>
        simp only [spelled, coerced, Except.map] at read
        exact ih (keyed_setAt keyed (fun name => ⟨name, rfl⟩) path value) read

theorem keyed_overrides (read : environment.overrides.2 = .ok values) :
    (Value.map values).Keyed Scalar.IsText :=
  keyed_overrideAll Value.keyed_empty read

end Environment

namespace Config

variable {journal : Journal} {project values : Mapping}

theorem load_regrouped
    (found : Config.project workspace root environment.paths = (journal, .ok project))
    (read : environment.overrides.2 = .ok values)
    (unbroken : Value.Unbroken (.map defaults) (.map project) (.map values)) :
    (Config.load workspace root environment).2 =
      .ok (raiseLevel (Mapping.over defaults (Mapping.over project values))) := by
  have sound : (Value.map defaults).Keyed Scalar.IsSound :=
    keyed_defaults.mono fun _ => Scalar.IsText.isSound
  have sound' : (Value.map values).Keyed Scalar.IsSound :=
    (Environment.keyed_overrides read).mono fun _ => Scalar.IsText.isSound
  have grouped := Value.over_assoc sound (sound_project found) sound' unbroken
  simp only [Value.map_over_map] at grouped
  rw [load_eq found read, Value.map.inj grouped]

end Config
end Inlay
