import EventIndex.Proofs.Position.Order
import Mathlib.Tactic.Ring

/-! # Keys of positions

The bytes of a word are read back as the word, and a position from its key. Bytes of one length are
ordered as the numbers that they stand for, so keys are ordered as their positions. -/

namespace EventIndex

/-! ## Bytes in order -/

theorem compare_bytes_eq_lt_iff {bs cs : List UInt8} : compare bs cs = .lt ↔ bs < cs := by
  induction bs generalizing cs with
  | nil => cases cs <;> simp
  | cons b bs ih =>
    cases cs with
    | nil => simp
    | cons c cs =>
      rw [List.compare_cons_cons, Ordering.then_eq_lt, Std.compare_eq_lt, Std.compare_eq_iff_eq, ih,
        List.cons_lt_cons_iff]

/-- What stands first decides, if it has the same length. -/
theorem append_lt_append_iff {as bs cs ds : List UInt8} (h : as.length = bs.length) :
    as ++ cs < bs ++ ds ↔ as < bs ∨ as = bs ∧ cs < ds := by
  induction as generalizing bs with
  | nil =>
    obtain rfl := List.eq_nil_of_length_eq_zero h.symm
    simp
  | cons a as ih =>
    cases bs with
    | nil => simp at h
    | cons b bs =>
      simp only [List.cons_append, List.cons_lt_cons_iff, ih (Nat.succ.inj h), List.cons.injEq,
        and_or_left, or_assoc, and_assoc]

/-- The number that bytes stand for, the highest first. -/
def byteValue (bs : List UInt8) : Nat :=
  bs.foldl (fun n b => n * 256 + b.toNat) 0

theorem byteValue_cons (b : UInt8) (bs : List UInt8) :
    byteValue (b :: bs) = b.toNat * 256 ^ bs.length + byteValue bs := by
  have hfold (n : Nat) : bs.foldl (fun n b => n * 256 + b.toNat) n =
      n * 256 ^ bs.length + byteValue bs := by
    induction bs generalizing n with
    | nil => simp [byteValue]
    | cons c bs ih =>
      rw [byteValue, List.foldl_cons, List.foldl_cons, ih, ih (0 * 256 + c.toNat), List.length_cons]
      ring
  rw [byteValue, List.foldl_cons, hfold, Nat.zero_mul, Nat.zero_add]

theorem byteValue_lt (bs : List UInt8) : byteValue bs < 256 ^ bs.length := by
  induction bs with
  | nil => decide
  | cons b bs ih =>
    have hb : (b.toNat + 1) * 256 ^ bs.length ≤ 256 * 256 ^ bs.length :=
      Nat.mul_le_mul_right _ b.toNat_lt
    rw [byteValue_cons, List.length_cons, pow_succ]
    rw [Nat.succ_mul] at hb
    omega

/-- Bytes of one length are ordered as the numbers that they stand for. -/
theorem byteValue_lt_iff {bs cs : List UInt8} (h : bs.length = cs.length) :
    byteValue bs < byteValue cs ↔ bs < cs := by
  induction bs generalizing cs with
  | nil =>
    obtain rfl := List.eq_nil_of_length_eq_zero h.symm
    simp
  | cons b bs ih =>
    cases cs with
    | nil => simp at h
    | cons c cs =>
      have hlength : bs.length = cs.length := Nat.succ.inj h
      have hbs := byteValue_lt bs
      have hcs := byteValue_lt cs
      rw [hlength] at hbs
      rw [byteValue_cons, byteValue_cons, hlength, List.cons_lt_cons_iff, ← ih hlength,
        UInt8.lt_iff_toNat_lt, ← UInt8.toNat_inj]
      -- A first byte that is less makes up for whatever follows.
      rcases Nat.lt_trichotomy b.toNat c.toNat with hlt | heq | hgt
      · have hle := Nat.mul_le_mul_right (256 ^ cs.length) hlt
        rw [Nat.succ_mul] at hle
        omega
      · rw [heq]
        omega
      · have hle := Nat.mul_le_mul_right (256 ^ cs.length) hgt
        rw [Nat.succ_mul] at hle
        omega

theorem byteValue_inj {bs cs : List UInt8} (h : bs.length = cs.length)
    (hvalue : byteValue bs = byteValue cs) : bs = cs := by
  apply List.le_antisymm
  · rw [← List.not_lt, ← byteValue_lt_iff h.symm]
    omega
  · rw [← List.not_lt, ← byteValue_lt_iff h]
    omega

/-! ## Words -/

theorem length_bigEndian (n : UInt32) : (bigEndian n).length = 4 := rfl

theorem byteValue_bigEndian (n : UInt32) : byteValue (bigEndian n) = n.toNat := by
  have hn := n.toNat_lt
  simp [byteValue, bigEndian]
  omega

theorem ofBigEndian_bigEndian (n : UInt32) : ofBigEndian (bigEndian n) = n := by
  change UInt32.ofNat (byteValue (bigEndian n)) = n
  rw [byteValue_bigEndian, UInt32.ofNat_toNat]

theorem bigEndian_ofBigEndian {bs : List UInt8} (h : bs.length = 4) :
    bigEndian (ofBigEndian bs) = bs := by
  have hvalue := byteValue_lt bs
  rw [h] at hvalue
  apply byteValue_inj (length_bigEndian _ |>.trans h.symm)
  rw [byteValue_bigEndian]
  exact UInt32.toNat_ofNat_of_lt' hvalue

theorem bigEndian_lt_iff {m n : UInt32} : bigEndian m < bigEndian n ↔ m < n := by
  rw [← byteValue_lt_iff (by rfl), byteValue_bigEndian, byteValue_bigEndian,
    UInt32.lt_iff_toNat_lt]

theorem bigEndian_inj {m n : UInt32} : bigEndian m = bigEndian n ↔ m = n :=
  ⟨fun h => by rw [← ofBigEndian_bigEndian m, h, ofBigEndian_bigEndian], congrArg bigEndian⟩

/-! ## Positions -/

namespace Position

theorem lt_iff {p q : Position} : p < q ↔ p.ledger < q.ledger ∨ p.ledger = q.ledger ∧
    (p.txHash.bytes < q.txHash.bytes ∨ p.txHash.bytes = q.txHash.bytes ∧
      p.eventIndex < q.eventIndex) := by
  rw [lt_iff_compare]
  change (compare p.ledger q.ledger).then ((compare p.txHash.bytes q.txHash.bytes).then
    (compare p.eventIndex q.eventIndex)) = .lt ↔ _
  simp only [Ordering.then_eq_lt, Std.compare_eq_lt, Std.compare_eq_iff_eq,
    compare_bytes_eq_lt_iff]

theorem length_key (p : Position) : p.key.length = 40 := by
  simp [key, length_bigEndian, p.txHash.length_eq]

theorem key_lt_key_iff {p q : Position} : p.key < q.key ↔ p < q := by
  have hhash : p.txHash.bytes.length = q.txHash.bytes.length :=
    p.txHash.length_eq.trans q.txHash.length_eq.symm
  rw [key, key, List.append_assoc, List.append_assoc, append_lt_append_iff (by rfl),
    append_lt_append_iff hhash, bigEndian_lt_iff, bigEndian_inj, bigEndian_lt_iff, lt_iff]

theorem key_le_key_iff {p q : Position} : p.key ≤ q.key ↔ p ≤ q := by
  rw [← List.not_lt, key_lt_key_iff, not_lt]

theorem ofKey_key (p : Position) : ofKey p.key = .ok p := by
  obtain ⟨ledger, txHash, eventIndex⟩ := p
  have hlength := length_key ⟨ledger, txHash, eventIndex⟩
  have hledger : (key ⟨ledger, txHash, eventIndex⟩).take 4 = bigEndian ledger := rfl
  have hhash : ((key ⟨ledger, txHash, eventIndex⟩).drop 4).take 32 = txHash.bytes := by
    simp [key, length_bigEndian, txHash.length_eq, List.take_append, List.drop_append]
  have hindex : (key ⟨ledger, txHash, eventIndex⟩).drop 36 = bigEndian eventIndex := by
    simp [key, length_bigEndian, txHash.length_eq, List.drop_append]
  simp [ofKey, keyLength, hlength, hledger, hhash, hindex, ofBigEndian_bigEndian]

theorem key_injective : Function.Injective key := fun p q h =>
  Except.ok.inj (by rw [← ofKey_key p, h, ofKey_key])

theorem exists_key {bytes : List UInt8} (h : bytes.length = 40) :
    ∃ p : Position, p.key = bytes := by
  refine ⟨⟨ofBigEndian (bytes.take 4), ⟨(bytes.drop 4).take 32, by simp [h]⟩,
    ofBigEndian (bytes.drop 36)⟩, ?_⟩
  have hsplit : (bytes.drop 4).take 32 ++ bytes.drop 36 = bytes.drop 4 := by
    rw [show bytes.drop 36 = (bytes.drop 4).drop 32 by rw [List.drop_drop],
      List.take_append_drop]
  rw [key, bigEndian_ofBigEndian (by simp [h]), bigEndian_ofBigEndian (by simp [h]),
    List.append_assoc, hsplit, List.take_append_drop]

theorem ofKey_eq_ok_iff {bytes : List UInt8} {p : Position} :
    ofKey bytes = .ok p ↔ p.key = bytes := by
  constructor
  · intro h
    have hlength : bytes.length = 40 := by
      by_contra hlength
      simp [ofKey, keyLength, hlength] at h
    obtain ⟨q, rfl⟩ := exists_key hlength
    rw [ofKey_key] at h
    rw [Except.ok.inj h]
  · rintro rfl
    exact ofKey_key p

theorem ofKey_of_length_ne {bytes : List UInt8} (h : bytes.length ≠ 40) :
    ofKey bytes = .error (.wrongLength bytes.length) :=
  dif_neg h

end Position

end EventIndex
