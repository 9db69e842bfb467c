import Inlay.Proofs.Decimal.Normal
import Inlay.Proofs.Value.Layering

set_option autoImplicit false

namespace Inlay

namespace Scalar

def IsSound : Scalar → Prop
  | float value => value.IsNormal
  | _ => True

instance (key : Scalar) : Decidable key.IsSound :=
  match key with
  | float value => inferInstanceAs (Decidable value.IsNormal)
  | null | bool _ | int _ | text _ | date _ | moment _ | bytes _ => isTrue trivial

theorem IsText.isSound {key : Scalar} (isText : key.IsText) : key.IsSound := by
  obtain ⟨name, rfl⟩ := isText
  trivial

def IsWhole (key : Scalar) (n : Int) : Prop :=
  key.whole? = some n ∨ ∃ value, key = float value ∧ value.isInt n = true

theorem whole?_float (value : Double) : (float value).whole? = none := rfl

theorem same_moment_iff {x y : Moment} : (moment x).same (moment y) = true ↔
    x.offset?.isSome = y.offset?.isSome ∧ x.instant = y.instant := by
  change (x.offset?.isSome == y.offset?.isSome && x.instant == y.instant) = true ↔ _
  rw [Bool.and_eq_true, beq_iff_eq, beq_iff_eq]

variable {first second third : Scalar} {m n : Int}

theorem IsWhole.unique (isWhole : first.IsWhole m) (isWhole' : first.IsWhole n) : m = n := by
  rcases isWhole with there | ⟨value, rfl, here⟩
  next =>
    rcases isWhole' with there' | ⟨value, rfl, -⟩
    next => exact Option.some.inj (there.symm.trans there')
    next => cases there
  next =>
    rcases isWhole' with there' | ⟨value, same, here'⟩
    next => cases there'
    next =>
      cases same
      exact Double.eq_of_isInt here here'

theorem cases_of_same (one : first.same second = true) :
    (∃ n, first.IsWhole n ∧ second.IsWhole n) ∨ first = second ∨
      ∃ x y, first = moment x ∧ second = moment y := by
  unfold same at one
  split at one
  next m n there there' =>
    obtain rfl := beq_iff_eq.1 one
    exact .inl ⟨m, .inl there, .inl there'⟩
  next m there _ =>
    split at one
    next _ value _ => exact .inl ⟨m, .inl there, .inr ⟨value, rfl, one⟩⟩
    next => cases one
  next n _ there' =>
    split at one
    next _ value _ => exact .inl ⟨n, .inr ⟨value, rfl, one⟩, .inl there'⟩
    next => cases one
  next =>
    split at one
    next x y _ _ =>
      rcases Double.eq_or_isInt_zero_of_same one with rfl | ⟨zero, zero'⟩
      next => exact .inr (.inl rfl)
      next => exact .inl ⟨0, .inr ⟨x, rfl, zero⟩, .inr ⟨y, rfl, zero'⟩⟩
    next x y _ _ => exact .inr (.inr ⟨x, y, rfl, rfl⟩)
    next => cases one
    next => cases one
    next => exact .inr (.inl (beq_iff_eq.1 one))

theorem same_of_isWhole (sound : first.IsSound) (sound' : second.IsSound) (isWhole : first.IsWhole n)
    (isWhole' : second.IsWhole n) : first.same second = true := by
  rcases isWhole with there | ⟨value, rfl, here⟩
  next =>
    rcases isWhole' with there' | ⟨value', rfl, here'⟩
    next => simp [same, there, there']
    next => simpa [same, there, whole?_float] using here'
  next =>
    rcases isWhole' with there' | ⟨value', rfl, here'⟩
    next => simpa [same, there', whole?_float] using here
    next => exact Double.same_of_isInt sound sound' here here'

theorem same_symm (sound : first.IsSound) (sound' : second.IsSound)
    (one : first.same second = true) : second.same first = true := by
  rcases cases_of_same one with ⟨n, isWhole, isWhole'⟩ | rfl | ⟨x, y, rfl, rfl⟩
  next => exact same_of_isWhole sound' sound isWhole' isWhole
  next => exact one
  next =>
    obtain ⟨offsets, instants⟩ := same_moment_iff.1 one
    exact same_moment_iff.2 ⟨offsets.symm, instants.symm⟩

theorem not_isWhole_moment (value : Moment) : ¬ (moment value).IsWhole n := by
  rintro (there | ⟨value, same, -⟩)
  next => cases there
  next => cases same

theorem same_trans (sound : first.IsSound) (sound'' : third.IsSound)
    (one : first.same second = true) (one' : second.same third = true) :
    first.same third = true := by
  rcases cases_of_same one with ⟨n, isWhole, isWhole'⟩ | rfl | ⟨x, y, rfl, rfl⟩
  next =>
    rcases cases_of_same one' with ⟨m, isWhole'', last⟩ | rfl | ⟨y, z, rfl, rfl⟩
    next =>
      obtain rfl := isWhole'.unique isWhole''
      exact same_of_isWhole sound sound'' isWhole last
    next => exact one
    next => exact absurd isWhole' (not_isWhole_moment y)
  next => exact one'
  next =>
    rcases cases_of_same one' with ⟨m, isWhole, -⟩ | rfl | ⟨y', z, same, rfl⟩
    next => exact absurd isWhole (not_isWhole_moment y)
    next => exact one
    next =>
      obtain ⟨offsets, instants⟩ := same_moment_iff.1 one
      obtain ⟨offsets', instants'⟩ := same_moment_iff.1 one'
      exact same_moment_iff.2 ⟨offsets.trans offsets', instants.trans instants'⟩

theorem same_comm (sound : first.IsSound) (sound' : second.IsSound) :
    first.same second = second.same first :=
  Bool.eq_iff_iff.2 ⟨same_symm sound sound', same_symm sound' sound⟩

theorem same_congr (sound : first.IsSound) (sound' : second.IsSound)
    (one : first.same second = true) (sound'' : third.IsSound) : first.same third = second.same third :=
  Bool.eq_iff_iff.2 ⟨same_trans sound' sound'' (same_symm sound sound' one),
    same_trans sound sound'' one⟩

end Scalar
end Inlay
