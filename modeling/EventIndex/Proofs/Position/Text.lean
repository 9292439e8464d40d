import EventIndex.Position.Codec
import EventIndex.Proofs.Json.Types

/-! # Positions read back

The digits of a hash are read back as its bytes, and a position from the record that it is written
as. -/

namespace EventIndex

namespace Hex

private theorem utf8_digit : ∀ n < 16,
    String.utf8EncodeChar (digit n) = [UInt8.ofNat (digit n).toNat] ∧
      digitValue? (UInt8.ofNat (digit n).toNat) = some (UInt8.ofNat n) := by
  decide

private def digitBytes : List UInt8 → List UInt8
  | [] => []
  | b :: bs =>
    .ofNat (digit (b.toNat / 16)).toNat :: .ofNat (digit (b.toNat % 16)).toNat :: digitBytes bs

private theorem utf8_encodeChars (bs : List UInt8) :
    (encodeChars bs).flatMap String.utf8EncodeChar = digitBytes bs := by
  induction bs with
  | nil => rfl
  | cons b bs ih =>
    have hb := b.toNat_lt
    simp [encodeChars, digitBytes, ih, (utf8_digit (b.toNat / 16) (by omega)).1,
      (utf8_digit (b.toNat % 16) (by omega)).1]

private theorem length_digitBytes (bs : List UInt8) : (digitBytes bs).length = 2 * bs.length := by
  induction bs with
  | nil => rfl
  | cons b bs ih => simp only [digitBytes, List.length_cons, ih]; omega

private theorem decodePairs_digitBytes (bs : List UInt8) (index : Nat) :
    decodePairs index (digitBytes bs) = .ok bs := by
  induction bs generalizing index with
  | nil => rfl
  | cons b bs ih =>
    have hb := b.toNat_lt
    have hvalue : UInt8.ofNat (b.toNat / 16) * 16 + UInt8.ofNat (b.toNat % 16) = b := by
      apply UInt8.toNat_inj.mp
      simp
      omega
    simp [digitBytes, decodePairs, (utf8_digit (b.toNat / 16) (by omega)).2,
      (utf8_digit (b.toNat % 16) (by omega)).2, ih, Except.map, hvalue]

theorem decode_encode (bs : List UInt8) : decode bs.length (encode bs) = .ok bs := by
  simp [decode, encode, utf8_encodeChars, length_digitBytes, decodePairs_digitBytes]

end Hex

namespace TxHash

theorem ofText_text (h : TxHash) : ofText h.text = .ok h := by
  have hdecode : Hex.decode 32 h.text = .ok h.bytes := by
    rw [← h.length_eq]
    exact Hex.decode_encode h.bytes
  unfold ofText
  split
  · next bytes hbytes =>
    obtain rfl := Except.ok.inj (hdecode.symm.trans hbytes)
    rfl
  · next e he => cases hdecode.symm.trans he

theorem faithful_codec : codec.Faithful 0 :=
  Json.Codec.faithful_parsed fun h => by rw [ofText_text]; rfl

end TxHash

theorem ContractId.faithful_codec : codec.Faithful 0 :=
  Json.Codec.faithful_string.map fun _ => rfl

theorem Position.faithful_codec : codec.Faithful 1 :=
  Json.Codec.faithful_record (fun _ => rfl) (by decide)
    ⟨Json.Codec.faithful_word32, TxHash.faithful_codec, Json.Codec.faithful_word32⟩

theorem Position.faithful_optional_codec : codec.optional.Faithful 1 :=
  Position.faithful_codec.optional fun p => by simp [codec, Json.RecordForm.codec, Json.chars]

end EventIndex
