import Inlay.Proofs.Text.Trim
import Inlay.Proofs.Text.Utf8
import Inlay.Text.Basic
import Inlay.Text.Pieces

set_option autoImplicit false

namespace Inlay

open Text

def Codec.Has (codec : Codec) (c : Char) : Prop :=
  match codec with
  | utf8 => True
  | markedUtf8 => True
  | latin1 => c.toNat < 0x100
  | ascii => c.toNat < 0x80

def Text.Within (kind : Char → Prop) (text : Text) : Prop :=
  ∀ c ∈ text, kind c

variable {kind : Char → Prop} {text first second : Text} {codec : Codec}

namespace Text.Within

theorem nil (kind : Char → Prop) : Within kind [] := by
  simp [Within]

theorem append (front : Within kind first) (back : Within kind second) :
    Within kind (first ++ second) :=
  List.forall_mem_append.2 ⟨front, back⟩

theorem cons {c : Char} (here : kind c) (rest : Within kind text) : Within kind (c :: text) :=
  List.forall_mem_cons.2 ⟨here, rest⟩

theorem subset (whole : Within kind second) (part : first ⊆ second) : Within kind first :=
  fun c member => whole c (part member)

theorem trim (whole : Within kind text) : Within kind (trim text) :=
  whole.subset (trim_isInfix text).subset

theorem unifyLines (lineEnd : kind '\n') (whole : Within kind text) :
    Within kind (unifyLines text) := by
  fun_induction Text.unifyLines text with
  | case1 => exact whole
  | case2 text ih =>
    exact .cons lineEnd (ih (whole.subset fun _ member => by simp [member]))
  | case3 c text _ ih =>
    refine .cons ?_ (ih (whole.subset (List.subset_cons_self c text)))
    split
    next => exact lineEnd
    next => exact whole c List.mem_cons_self

-- What is written for the pieces of a text is made of the text and of what is put in.
theorem write {A : Type} {form : Recogniser A} {render : A → Text} (whole : Within kind text)
    (rendered : ∀ value, Within kind (render value)) (previous : Option Char) :
    Within kind ((form.pieces previous text).write render) := by
  fun_induction Recogniser.pieces form previous text with
  | case1 => exact nil kind
  | case2 previous c text value rest found _ ih =>
    obtain ⟨lexeme, -, same⟩ := form.advances found
    rw [Pieces.write_find]
    refine (rendered value).append (ih (whole.subset ?_))
    rw [same]
    exact List.subset_append_right _ _
  | case3 previous c text missing ih =>
    rw [Pieces.write_skip]
    exact .cons (whole c List.mem_cons_self) (ih (whole.subset (List.subset_cons_self c text)))

end Text.Within

namespace Codec

theorem has_of_ascii {c : Char} (small : c.toNat < 0x80) (codec : Codec) : codec.Has c := by
  cases codec with
  | utf8 => trivial
  | markedUtf8 => trivial
  | latin1 => exact Nat.lt_trans small (by decide)
  | ascii => exact small

theorem toNat_ofNat_byte (b : UInt8) : (Char.ofNat b.toNat).toNat = b.toNat := by
  have small := b.toNat_lt
  exact Utf8.toNat_ofNat (.inl (by omega))

theorem within_decodeAscii {position : Nat} {bytes : Bytes}
    (decoded : decodeAscii position bytes = .ok text) : Within ascii.Has text := by
  induction bytes generalizing position text with
  | nil =>
    cases decoded
    exact .nil _
  | cons b bytes ih =>
    unfold decodeAscii at decoded
    split at decoded
    next small =>
      cases rest : decodeAscii (position + 1) bytes with
      | error fault => simp [rest, Except.map] at decoded
      | ok found =>
        rw [rest] at decoded
        cases decoded
        refine .cons ?_ (ih rest)
        rw [Has, toNat_ofNat_byte]
        exact small
    next => cases decoded

theorem within_decode {bytes : Bytes} (decoded : codec.decode bytes = .ok text) :
    Within codec.Has text := by
  cases codec with
  | utf8 => exact fun _ _ => trivial
  | markedUtf8 => exact fun _ _ => trivial
  | latin1 =>
    cases decoded
    intro c member
    obtain ⟨b, -, rfl⟩ := List.mem_map.1 member
    rw [Has, toNat_ofNat_byte]
    exact b.toNat_lt
  | ascii => exact within_decodeAscii decoded

theorem exists_encodeBelow {limit : Nat} (whole : ∀ c ∈ text, c.toNat < limit) :
    ∃ bytes, encodeBelow? limit text = some bytes := by
  induction text with
  | nil => exact ⟨[], rfl⟩
  | cons c text ih =>
    obtain ⟨bytes, rest⟩ := ih fun d member => whole d (List.mem_cons_of_mem _ member)
    refine ⟨c.toNat.toUInt8 :: bytes, ?_⟩
    unfold encodeBelow? at rest ⊢
    rw [List.mapM_cons, if_pos (whole c List.mem_cons_self), rest]
    rfl

theorem exists_encode (whole : Within codec.Has text) : ∃ bytes, codec.encode? text = some bytes := by
  cases codec with
  | utf8 => exact ⟨_, rfl⟩
  | markedUtf8 => exact ⟨_, rfl⟩
  | latin1 => exact exists_encodeBelow whole
  | ascii => exact exists_encodeBelow whole

end Codec
end Inlay
