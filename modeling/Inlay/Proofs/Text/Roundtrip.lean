import Inlay.Proofs.Text.Repertoire

set_option autoImplicit false

namespace Inlay

open Text

variable {b : UInt8} {bytes copy : Bytes} {text : Text} {codec : Codec} {limit position : Nat}

namespace Codec

def ofBytes (bytes : Bytes) : Text :=
  bytes.map fun b => Char.ofNat b.toNat

theorem encodeBelow?_cons {c : Char} : encodeBelow? limit (c :: text) = some bytes ↔
    c.toNat < limit ∧ ∃ more, encodeBelow? limit text = some more ∧
      c.toNat.toUInt8 :: more = bytes := by
  unfold encodeBelow?
  rw [List.mapM_cons]
  by_cases small : c.toNat < limit <;> simp [small, Option.bind_eq_some_iff]

theorem encodeBelow?_eq_some_iff (byte : limit ≤ 256) : encodeBelow? limit text = some bytes ↔
    (∀ b ∈ bytes, b.toNat < limit) ∧ text = ofBytes bytes := by
  induction text generalizing bytes with
  | nil =>
    constructor
    next =>
      rintro ⟨⟩
      exact ⟨by simp, rfl⟩
    next =>
      rintro ⟨-, same⟩
      rw [List.map_eq_nil_iff.1 same.symm]
      rfl
  | cons c text ih =>
    simp only [encodeBelow?_cons, ih]
    constructor
    next =>
      rintro ⟨small, more, ⟨rest, rfl⟩, rfl⟩
      have same : c.toNat.toUInt8.toNat = c.toNat :=
        UInt8.toNat_ofNat_of_lt' (Nat.lt_of_lt_of_le small byte)
      exact ⟨List.forall_mem_cons.2 ⟨by rwa [same], rest⟩, by simp [ofBytes, same]⟩
    next =>
      rintro ⟨small, same⟩
      cases bytes with
      | nil => cases same
      | cons b more =>
        cases same
        obtain ⟨here, rest⟩ := List.forall_mem_cons.1 small
        rw [toNat_ofNat_byte]
        exact ⟨here, more, ⟨rest, rfl⟩, by simp⟩

theorem decodeAscii_cons : decodeAscii position (b :: bytes) = .ok text ↔
    b.toNat < 128 ∧ ∃ more, decodeAscii (position + 1) bytes = .ok more ∧
      text = Char.ofNat b.toNat :: more := by
  rw [decodeAscii]
  by_cases small : b < 128
  next =>
    have small' : b.toNat < 128 := small
    cases rest : decodeAscii (position + 1) bytes <;> simp [small, small', Except.map, eq_comm]
  next =>
    have large : ¬ b.toNat < 128 := small
    simp [small, large]

theorem decodeAscii_eq_ok_iff : decodeAscii position bytes = .ok text ↔
    (∀ b ∈ bytes, b.toNat < 128) ∧ text = ofBytes bytes := by
  induction bytes generalizing position text with
  | nil => simp [decodeAscii, ofBytes, eq_comm]
  | cons b bytes ih =>
    simp only [decodeAscii_cons, ih, List.forall_mem_cons]
    constructor
    next =>
      rintro ⟨here, more, ⟨rest, rfl⟩, rfl⟩
      exact ⟨⟨here, rest⟩, rfl⟩
    next =>
      rintro ⟨⟨here, rest⟩, rfl⟩
      exact ⟨here, _, ⟨rest, rfl⟩, rfl⟩

theorem decodeMarked_append (bytes : Bytes) :
    decodeMarked (byteOrderMark ++ bytes) = Utf8.decode bytes := by
  have whole : ¬ (byteOrderMark ++ bytes).length < 3 := by simp [byteOrderMark]
  rw [decodeMarked, if_neg (fun short => whole short.1), if_pos (by simp)]
  rfl

theorem decode_of_encode? (encoded : codec.encode? text = some bytes) :
    codec.decode bytes = .ok text := by
  cases codec with
  | utf8 => exact Utf8.decode_eq_ok_iff.2 (Option.some.inj encoded)
  | markedUtf8 =>
    cases encoded
    exact (decodeMarked_append _).trans (Utf8.decode_eq_ok_iff.2 rfl)
  | latin1 => exact congrArg Except.ok ((encodeBelow?_eq_some_iff (by decide)).1 encoded).2.symm
  | ascii => exact decodeAscii_eq_ok_iff.2 ((encodeBelow?_eq_some_iff (by decide)).1 encoded)

theorem encode?_of_decode (decoded : codec.decode bytes = .ok text) :
    codec.encode? text = some bytes ↔ (codec = .markedUtf8 → byteOrderMark <+: bytes) := by
  cases codec with
  | utf8 => simp [encode?, Utf8.decode_eq_ok_iff.1 decoded]
  | latin1 =>
    simp only [reduceCtorEq, false_implies, iff_true]
    refine (encodeBelow?_eq_some_iff (by decide)).2 ⟨fun b _ => b.toNat_lt, ?_⟩
    exact (Except.ok.inj decoded).symm
  | ascii =>
    simp only [reduceCtorEq, false_implies, iff_true]
    exact (encodeBelow?_eq_some_iff (by decide)).2 (decodeAscii_eq_ok_iff.1 decoded)
  | markedUtf8 =>
    simp only [encode?, Option.some.injEq, true_implies]
    constructor
    next => exact fun same => ⟨_, same⟩
    next =>
      rintro ⟨rest, rfl⟩
      have same := (decodeMarked_append rest).symm.trans decoded
      rw [Utf8.decode_eq_ok_iff.1 same]

theorem mem_encode_iff (small : b.toNat < 128) :
    b ∈ Utf8.encode text ↔ Char.ofNat b.toNat ∈ text := by
  rw [Utf8.encode, List.mem_flatMap]
  constructor
  next =>
    rintro ⟨c, member, inside⟩
    rwa [← (Utf8.mem_encodeChar_iff small).1 inside, Char.ofNat_toNat]
  next => exact fun member => ⟨_, member, (Utf8.mem_encodeChar_iff small).2 (toNat_ofNat_byte b)⟩

theorem mem_ofBytes_iff : Char.ofNat b.toNat ∈ ofBytes bytes ↔ b ∈ bytes := by
  rw [ofBytes, List.mem_map]
  constructor
  next =>
    rintro ⟨other, member, same⟩
    have numbers := congrArg Char.toNat same
    rw [toNat_ofNat_byte, toNat_ofNat_byte] at numbers
    rwa [← UInt8.toNat_inj.1 numbers]
  next => exact fun member => ⟨b, member, rfl⟩

theorem not_mem_byteOrderMark (small : b.toNat < 128) : b ∉ byteOrderMark := by
  have large : byteOrderMark.all (fun other => decide (128 ≤ other.toNat)) = true := by decide
  intro member
  have high : 128 ≤ b.toNat := of_decide_eq_true (List.all_eq_true.1 large b member)
  exact Nat.not_le.2 small high

-- All encodings write ASCII as it is, and write nothing else that way.
theorem mem_iff_of_decode (small : b.toNat < 128) (decoded : codec.decode bytes = .ok text) :
    Char.ofNat b.toNat ∈ text ↔ b ∈ bytes := by
  cases codec with
  | utf8 => rw [← Utf8.decode_eq_ok_iff.1 decoded, mem_encode_iff small]
  | latin1 => rw [← Except.ok.inj decoded, ← mem_ofBytes_iff, ofBytes]
  | ascii => rw [(decodeAscii_eq_ok_iff.1 decoded).2, mem_ofBytes_iff]
  | markedUtf8 =>
    change decodeMarked bytes = .ok text at decoded
    unfold decodeMarked at decoded
    split at decoded
    next beginning =>
      cases decoded
      have part := (List.isPrefixOf_iff_prefix.1 beginning.2).subset
      simpa using fun member => not_mem_byteOrderMark small (part member)
    next =>
      split at decoded
      next marked =>
        obtain ⟨rest, rfl⟩ := List.isPrefixOf_iff_prefix.1 marked
        have same : (byteOrderMark ++ rest).drop 3 = rest := rfl
        rw [same] at decoded
        rw [← Utf8.decode_eq_ok_iff.1 decoded, List.mem_append, mem_encode_iff small]
        simp [not_mem_byteOrderMark small]
      next => rw [← Utf8.decode_eq_ok_iff.1 decoded, mem_encode_iff small]

end Codec

theorem Text.not_mem_unifyLines (text : Text) : '\r' ∉ unifyLines text := by
  fun_induction unifyLines text with
  | case1 => simp
  | case2 text ih => simpa using ih
  | case3 c text _ ih =>
    by_cases return_ : c = '\r'
    next => simpa [return_] using ih
    next => simpa [return_, Ne.symm return_] using ih

theorem Text.unifyLines_eq_self (clean : '\r' ∉ text) : unifyLines text = text := by
  fun_induction unifyLines text with
  | case1 => rfl
  | case2 text ih => simp at clean
  | case3 c text _ ih =>
    simp only [List.mem_cons, not_or] at clean
    rw [if_neg (Ne.symm clean.1), ih clean.2]

-- If what is written is read again, then it is what was read just if there were no carriage returns
-- and the encoding writes what it reads.
theorem Coding.copy_eq_iff {coding : Coding} (decoded : coding.decode bytes = .ok text)
    (encoded : coding.encode (unifyLines text) = .ok copy)
    (returns : coding.decode copy = .ok (unifyLines text)) :
    copy = bytes ↔ '\r' ∉ text ∧ coding.encode text = .ok bytes := by
  constructor
  next =>
    rintro rfl
    have same := Except.ok.inj (returns.symm.trans decoded)
    exact ⟨same ▸ not_mem_unifyLines text, same ▸ encoded⟩
  next =>
    rintro ⟨clean, whole⟩
    rw [unifyLines_eq_self clean, whole] at encoded
    exact (Except.ok.inj encoded).symm

theorem Codec.copy_eq_iff (decoded : codec.coding.decode bytes = .ok text)
    (encoded : codec.coding.encode (unifyLines text) = .ok copy) :
    copy = bytes ↔ 13 ∉ bytes ∧ (codec = .markedUtf8 → byteOrderMark <+: bytes) := by
  have returns := decode_coding_iff.2 (decode_of_encode? (encode_coding_iff.1 encoded))
  have decoded' := decode_coding_iff.1 decoded
  have carriage : '\r' ∈ text ↔ (13 : UInt8) ∈ bytes := mem_iff_of_decode (b := 13) (by decide) decoded'
  rw [Coding.copy_eq_iff decoded encoded returns, carriage, encode_coding_iff,
    encode?_of_decode decoded']

end Inlay
