import Inlay.Proofs.Text.Repertoire
import Inlay.Proofs.Workspace.Deposit

set_option autoImplicit false

namespace Inlay

open Text

def FileFault.IsOfPath (path : Text) (fault : FileFault) : Prop :=
  fault = .nullCharacter ∧ Char.ofNat 0 ∈ path ∨ fault.isSystem = true

theorem FileFault.IsOfPath.ne_unencodable {path : Text} {fault : FileFault}
    (ofPath : fault.IsOfPath path) : fault ≠ .unencodable := by
  rintro rfl
  rcases ofPath with ⟨null, -⟩ | system
  next => cases null
  next => cases system

namespace Workspace

variable {workspace before after : Workspace} {shown path encoding text : Text} {outer : List Text}
variable {bytes : Bytes} {fault : FileFault} {codec : Codec} {coding : Coding}

theorem isOfPath_of_locate (failed : workspace.locate shown path = .error fault) :
    fault.IsOfPath path := by
  unfold locate at failed
  split at failed
  next null =>
    cases failed
    exact .inl ⟨rfl, by simpa using null⟩
  next =>
    split at failed
    next =>
      cases failed
      exact .inr rfl
    next => exact .inr (isSystem_of_foldlM failed)

theorem isOfPath_of_read (failed : workspace.read shown path = .error fault) : fault.IsOfPath path := by
  unfold Workspace.read entryAt at failed
  cases located : workspace.locate shown path with
  | error cause =>
    simp only [located, Bind.bind, Except.bind, Except.error.injEq] at failed
    exact failed ▸ isOfPath_of_locate located
  | ok place =>
    cases found : workspace.get? place with
    | none =>
      simp only [located, found, Bind.bind, Except.bind, throw, throwThe, MonadExceptOf.throw,
        Except.error.injEq] at failed
      exact failed ▸ .inr rfl
    | some entry =>
      cases entry with
      | file bytes => simp [located, found, Bind.bind, Except.bind, pure, Except.pure] at failed
      | directory =>
        simp only [located, found, Bind.bind, Except.bind, pure, Except.pure, throw, throwThe,
          MonadExceptOf.throw, Except.error.injEq] at failed
        exact failed ▸ .inr rfl

theorem isOfPath_of_write (failed : workspace.write path bytes = .error fault) :
    fault.IsOfPath path := by
  unfold Workspace.write at failed
  cases located : workspace.locate path path with
  | error cause =>
    simp only [located, Bind.bind, Except.bind, Except.error.injEq] at failed
    exact failed ▸ isOfPath_of_locate located
  | ok place =>
    simp only [located, Bind.bind, Except.bind] at failed
    split at failed
    next =>
      cases failed
      exact .inr rfl
    next => cases failed
    next =>
      split at failed
      next => cases failed
      next =>
        cases failed
        exact .inr rfl

theorem isSystem_of_makeOne (failed : workspace.makeOne outer = .error fault) :
    fault.isSystem = true := by
  cases outer with
  | nil => cases failed
  | cons component outer =>
    rw [makeOne_cons] at failed
    dsimp only at failed
    split at failed
    next =>
      cases failed
      rfl
    next =>
      split at failed
      next followed =>
        cases failed
        exact isSystem_of_foldlM followed
      next =>
        split at failed
        next => cases failed
        next =>
          cases failed
          rfl
        next => cases failed

theorem isSystem_of_makeFrom (failed : workspace.makeFrom outer = .error fault) :
    fault.isSystem = true := by
  induction outer with
  | nil => cases failed
  | cons component outer ih =>
    unfold makeFrom at failed
    split at failed
    next =>
      cases around : workspace.makeFrom outer with
      | error cause =>
        simp only [around, Bind.bind, Except.bind, Except.error.injEq] at failed
        exact ih (failed ▸ around)
      | ok middle =>
        simp only [around, Bind.bind, Except.bind] at failed
        exact isSystem_of_makeOne failed
    next => exact isSystem_of_makeOne failed

theorem isOfPath_of_makeDirectories (failed : workspace.makeDirectories path = .error fault) :
    fault.IsOfPath path := by
  unfold makeDirectories at failed
  split at failed
  next null =>
    cases failed
    exact .inl ⟨rfl, by simpa using null⟩
  next => exact .inr (isSystem_of_makeFrom failed)

-- The second writing is of the same path, so it fails only if the first one does.
theorem eq_of_writeText_error (tree : workspace.IsTree) (known : workspace.coding encoding = .ok coding)
    (encoded : coding.encode text = .ok bytes)
    (failed : workspace.writeText encoding path text = (after, .error fault)) :
    after = workspace ∧ fault.IsOfPath path := by
  unfold writeText at failed
  cases opened : workspace.write path [] with
  | error cause =>
    simp only [opened, Prod.mk.injEq, Except.error.injEq] at failed
    obtain ⟨rfl, rfl⟩ := failed
    exact ⟨rfl, isOfPath_of_write opened⟩
  | ok emptied =>
    obtain ⟨place, located, free, around, -⟩ := tree.write_eq_ok_iff.1 opened
    have wrote : workspace.write path bytes = .ok (workspace.put place (.file bytes)) :=
      tree.write_eq_ok_iff.2 ⟨place, located, free, around, rfl⟩
    simp [opened, known, encoded, wrote] at failed

-- Writing fails for the path or because the encoding refuses the text.
theorem fault_of_writeText (known : workspace.coding encoding = .ok coding)
    (failed : (workspace.writeText encoding path text).2 = .error fault) :
    fault.IsOfPath path ∨ ∃ cause, coding.encode text = .error cause ∧ fault = .ofEncode cause := by
  unfold writeText at failed
  cases opened : workspace.write path [] with
  | error cause =>
    simp only [opened, Except.error.injEq] at failed
    exact .inl (failed ▸ isOfPath_of_write opened)
  | ok emptied =>
    simp only [opened, known] at failed
    cases encoded : coding.encode text with
    | error cause =>
      simp only [encoded, Except.error.injEq] at failed
      exact .inr ⟨cause, rfl, failed.symm⟩
    | ok bytes =>
      cases wrote : workspace.write path bytes with
      | ok written => simp [encoded, wrote] at failed
      | error cause =>
        simp only [encoded, wrote, Except.error.injEq] at failed
        exact .inl (failed ▸ isOfPath_of_write wrote)

theorem readText_eq_ok_iff : workspace.readText encoding shown path = .ok text ↔
    Char.ofNat 0 ∉ encoding ∧ ∃ bytes coding decoded, workspace.read shown path = .ok bytes ∧
      workspace.coding encoding = .ok coding ∧ coding.decode bytes = .ok decoded ∧
      text = unifyLines decoded := by
  unfold readText
  by_cases null : Char.ofNat 0 ∈ encoding
  next => simp [null, throw, throwThe, MonadExceptOf.throw, Bind.bind, Except.bind]
  next =>
    cases read : workspace.read shown path with
    | error cause => simp [null, Bind.bind, Except.bind]
    | ok bytes =>
      cases known : workspace.coding encoding with
      | error cause => simp [null, Bind.bind, Except.bind]
      | ok coding =>
        cases decoded : coding.decode bytes <;>
          simp [null, decoded, Bind.bind, Except.bind, pure, Except.pure, throw, throwThe,
            MonadExceptOf.throw, eq_comm]

theorem readText_mono (machine : after.machine = before.machine)
    (kept : ∀ bytes, before.read shown path = .ok bytes → after.read shown path = .ok bytes)
    (read : before.readText encoding shown path = .ok text) :
    after.readText encoding shown path = .ok text := by
  obtain ⟨legible, bytes, coding, decoded, found, known, rest⟩ := readText_eq_ok_iff.1 read
  rw [← coding_of_machine machine] at known
  exact readText_eq_ok_iff.2 ⟨legible, bytes, coding, decoded, kept bytes found, known, rest⟩

theorem exists_decoded_of_readText (known : workspace.coding encoding = .ok coding)
    (read : workspace.readText encoding shown path = .ok text) :
    ∃ bytes decoded, workspace.read shown path = .ok bytes ∧ coding.decode bytes = .ok decoded ∧
      text = unifyLines decoded := by
  obtain ⟨-, bytes, coding', decoded, found, known', rest⟩ := readText_eq_ok_iff.1 read
  cases known.symm.trans known'
  exact ⟨bytes, decoded, found, rest⟩

theorem within_readText (known : workspace.coding encoding = .ok codec.coding)
    (read : workspace.readText encoding shown path = .ok text) : Within codec.Has text := by
  obtain ⟨bytes, decoded, -, decodes, rfl⟩ := exists_decoded_of_readText known read
  have within := Codec.within_decode (Codec.decode_coding_iff.1 decodes)
  exact within.unifyLines (Codec.has_of_ascii (by decide) codec)

-- Reading fails for the encoding's name, for the path, for want of an encoding or in decoding.
theorem cases_of_readText_error (failed : workspace.readText encoding shown path = .error fault) :
    Char.ofNat 0 ∈ encoding ∧ fault = .nullCharacter ∨
    Char.ofNat 0 ∉ encoding ∧ (workspace.read shown path = .error fault ∨
      ∃ bytes, workspace.read shown path = .ok bytes ∧
        (workspace.coding encoding = .error fault ∨
          ∃ coding cause, workspace.coding encoding = .ok coding ∧
            coding.decode bytes = .error cause ∧ fault = .ofDecode cause)) := by
  unfold readText at failed
  by_cases null : Char.ofNat 0 ∈ encoding
  next =>
    simp only [List.contains_eq_mem, null, decide_true, if_true, throw, throwThe,
      MonadExceptOf.throw, Bind.bind, Except.bind, Except.error.injEq] at failed
    exact .inl ⟨null, failed.symm⟩
  next =>
    rw [if_neg (by simpa using null)] at failed
    refine .inr ⟨null, ?_⟩
    cases read : workspace.read shown path with
    | error cause =>
      simp only [read, Bind.bind, Except.bind, Except.error.injEq] at failed
      exact .inl (failed ▸ rfl)
    | ok bytes =>
      refine .inr ⟨bytes, rfl, ?_⟩
      simp only [read, Bind.bind, Except.bind] at failed
      cases known : workspace.coding encoding with
      | error cause =>
        simp only [known, Except.error.injEq] at failed
        exact .inl (failed ▸ rfl)
      | ok coding =>
        simp only [known] at failed
        cases decoded : coding.decode bytes with
        | ok text => simp [decoded, pure, Except.pure] at failed
        | error cause =>
          simp only [decoded, throw, throwThe, MonadExceptOf.throw, Except.error.injEq] at failed
          exact .inr ⟨coding, cause, rfl, decoded, failed.symm⟩

theorem coding_ne_unencodable (failed : workspace.coding encoding = .error fault) :
    fault ≠ .unencodable := by
  unfold Workspace.coding at failed
  split at failed
  next => cases failed
  next => split at failed <;> cases failed <;> simp

theorem readText_ne_unencodable (failed : workspace.readText encoding shown path = .error fault) :
    fault ≠ .unencodable := by
  rcases cases_of_readText_error failed with
    ⟨-, rfl⟩ | ⟨-, read | ⟨bytes, -, unnamed | ⟨coding, cause, -, -, rfl⟩⟩⟩
  next => simp
  next => exact (isOfPath_of_read read).ne_unencodable
  next => exact coding_ne_unencodable unnamed
  next => cases cause <;> simp [FileFault.ofDecode]

end Workspace
end Inlay
