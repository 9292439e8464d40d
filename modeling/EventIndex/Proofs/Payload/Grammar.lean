import EventIndex.Proofs.Json.Formed
import EventIndex.Proofs.Json.Integer
import EventIndex.Proofs.Payload.Check
import Mathlib.Data.List.Nodup
import Mathlib.Data.List.Perm.Subperm

/-! # The grammar of payloads

What a payload says is a list of named data. It is written as an object with just these names, in
any order, or as a list in the order of the names. Text is written as a string, and an integer as a
number or a string that spells it. -/

namespace EventIndex

open Json Text

/-! ## Data -/

/-- What a field of a payload says. -/
inductive Datum where
  | text (s : String)
  | word32 (n : UInt32)
  | word64 (n : UInt64)
  | amount (a : Amount)
deriving DecidableEq

/-- The value is a number or a string whose text spells the integer. -/
inductive SpelledInteger (n : Int) : Json → Prop
  | number {text : String} (h : Spells text.toList n) : SpelledInteger n (.number text)
  | string {text : String} (h : Spells text.toList n) : SpelledInteger n (.string text)

/-- The value stands for the datum. -/
def Datum.SpelledBy (v : Json) : Datum → Prop
  | text s => v = .string s
  | word32 n => SpelledInteger n.toNat v
  | word64 n => SpelledInteger n.toNat v
  | amount a => SpelledInteger a.val v

/-- The fields of a payload by name, in order, with what they say. -/
def Payload.data : Payload → List (String × Datum)
  | tradeExecuted p => [("trade_id", .word64 p.tradeId), ("maker", .text p.maker),
      ("taker", .text p.taker), ("base_asset", .text p.baseAsset),
      ("quote_asset", .text p.quoteAsset), ("base_amount", .amount p.baseAmount),
      ("quote_amount", .amount p.quoteAmount), ("executed_at", .word64 p.executedAt)]
  | proposalCreated p => [("proposal_id", .word64 p.proposalId), ("proposer", .text p.proposer),
      ("title", .text p.title), ("approval_threshold", .word32 p.approvalThreshold),
      ("created_at", .word64 p.createdAt)]
  | proposalApproved p => [("proposal_id", .word64 p.proposalId), ("approver", .text p.approver),
      ("approved_at", .word64 p.approvedAt)]
  | proposalRejected p => [("proposal_id", .word64 p.proposalId),
      ("rejected_by", .text p.rejectedBy), ("rejected_at", .word64 p.rejectedAt)]
  | proposalCancelled p => [("proposal_id", .word64 p.proposalId),
      ("cancelled_by", .text p.cancelledBy), ("cancelled_at", .word64 p.cancelledAt)]
  | proposalExecuted p => [("proposal_id", .word64 p.proposalId), ("executor", .text p.executor),
      ("executed_at", .word64 p.executedAt)]
  | rewardAdded p => [("reward_id", .word64 p.rewardId), ("recipient", .text p.recipient),
      ("amount", .amount p.amount), ("reason", .text p.reason), ("added_at", .word64 p.addedAt)]
  | rewardClaimed p => [("reward_id", .word64 p.rewardId), ("recipient", .text p.recipient),
      ("amount", .amount p.amount), ("claimed_at", .word64 p.claimedAt)]
  | grant p => [("grant_id", .word64 p.grantId), ("beneficiary", .text p.beneficiary),
      ("amount", .amount p.amount), ("start_time", .word64 p.startTime),
      ("cliff_seconds", .word64 p.cliffSeconds), ("duration_seconds", .word64 p.durationSeconds),
      ("granted_at", .word64 p.grantedAt)]
  | claim p => [("grant_id", .word64 p.grantId), ("beneficiary", .text p.beneficiary),
      ("amount", .amount p.amount), ("claimed_at", .word64 p.claimedAt)]
  | revoke p => [("grant_id", .word64 p.grantId), ("revoked_at", .word64 p.revokedAt),
      ("unvested_amount", .amount p.unvestedAmount)]

/-- The field has the name of the datum, and its value stands for it. -/
def WrittenField (d : String × Datum) (field : String × Json) : Prop :=
  field.1 = d.1 ∧ d.2.SpelledBy field.2

/-- The value is an object with just these data as its fields, in any order, or a list of them in
order. -/
inductive WrittenAs (data : List (String × Datum)) : Json → Prop
  | object {fields written : List (String × Json)} (perm : fields.Perm written)
    (h : List.Forall₂ WrittenField data written) : WrittenAs data (.object fields)
  | array {items : List Json} (h : List.Forall₂ (fun d v => d.2.SpelledBy v) data items) :
    WrittenAs data (.array items)

/-! ## Fields -/

theorem SpelledInteger.amountOfJson_eq {v : Json} {a : Amount} (h : SpelledInteger a.val v) :
    amountOfJson v = .ok a := by
  cases h with
  | number h => exact (amountOfJson_number _).trans (Offer.read_ofValue_eq_ok_iff.mpr h)
  | string h => exact amountOfString_eq_ok_iff.mpr h

theorem names_of_amountOfJson {fields : List (String × Json)} {a : Amount}
    (h : amountOfJson (.object fields) = .ok a) : fields.map Prod.fst = [numberKey] := by
  match fields with
  | [] => cases h
  | (name, v) :: rest =>
    rw [amountOfJson.eq_def] at h
    dsimp only at h
    split at h
    · next hname =>
      subst hname
      cases v with
      | string spelled =>
        obtain ⟨b, -, hrest⟩ := bind_eq_ok_iff.mp h
        split at hrest
        · next hempty => rw [List.isEmpty_iff.mp hempty, List.map_singleton]
        · cases hrest
      | _ => cases h
    · cases h

/-- The integers that are read from a formed value are those that it spells. -/
theorem Json.Formed.spelledInteger {v : Json} (hv : v.Formed) {a : Amount}
    (h : amountOfJson v = .ok a) : SpelledInteger a.val v := by
  cases hv with
  | number _ =>
    rw [amountOfJson_number] at h
    exact .number (Offer.read_ofValue_eq_ok_iff.mp h)
  | string s => exact .string (amountOfString_eq_ok_iff.mp h)
  | null | bool b | array _ => cases h
  | object _ named _ => exact absurd (names_of_amountOfJson h) named

namespace FieldKind

def datum : (k : FieldKind) → k.type → Datum
  | text => .text
  | word32 => .word32
  | word64 => .word64
  | amount => .amount

theorem wordOfJson_eq_ok_iff {size n : Nat} {v : Json} :
    wordOfJson size v = .ok n ↔
      ∃ a : Amount, amountOfJson v = .ok a ∧ a.val = n ∧ n < 2 ^ size := by
  have hpow := Nat.two_pow_pos size
  have hword (a : Amount) : (inRange 0 (Nat.pow 2 size - 1 : Nat) a).map Int.toNat = .ok n ↔
      a.val = n ∧ n < 2 ^ size := by
    simp only [inRange, map_eq_ok_iff, Nat.pow_eq]
    split
    · simp only [Except.ok.injEq, exists_eq_left']
      omega
    · simp only [reduceCtorEq, false_and, exists_false, false_iff]
      omega
  rw [wordOfJson, bind_eq_ok_iff]
  exact exists_congr fun a => and_congr_right fun _ => hword a

variable {k : FieldKind} {v : Json} {a : k.type}

theorem wordOfJson_of_spelled {size n : Nat} (h : SpelledInteger n v) (hn : n < 2 ^ size)
    (hsize : size < 127) : wordOfJson size v = .ok n := by
  have hpow : 2 ^ size < 2 ^ 127 := Nat.pow_lt_pow_right (by decide) hsize
  have hrange : -amountLimit ≤ (n : Int) ∧ (n : Int) < amountLimit := by
    simp only [amountLimit]
    omega
  exact wordOfJson_eq_ok_iff.mpr
    ⟨⟨n, hrange.1, hrange.2⟩, SpelledInteger.amountOfJson_eq h, rfl, hn⟩

theorem spelled_of_wordOfJson (hv : v.Formed) {size n : Nat} (h : wordOfJson size v = .ok n) :
    SpelledInteger n v ∧ n < 2 ^ size := by
  obtain ⟨a, ha, hval, hn⟩ := wordOfJson_eq_ok_iff.mp h
  exact ⟨hval ▸ hv.spelledInteger ha, hn⟩

theorem ofJson_of_spelledBy (h : (k.datum a).SpelledBy v) : k.ofJson v = .ok a := by
  cases k with
  | text =>
    obtain rfl := h
    rfl
  | word32 =>
    exact map_eq_ok_iff.mpr ⟨UInt32.toNat a,
      wordOfJson_of_spelled h (UInt32.toNat_lt_size a) (by decide), UInt32.ofNat_toNat⟩
  | word64 =>
    exact map_eq_ok_iff.mpr ⟨UInt64.toNat a,
      wordOfJson_of_spelled h (UInt64.toNat_lt_size a) (by decide), UInt64.ofNat_toNat⟩
  | amount => exact h.amountOfJson_eq

theorem spelledBy_of_ofJson (hv : v.Formed) (h : k.ofJson v = .ok a) : (k.datum a).SpelledBy v := by
  cases k with
  | text =>
    cases v with
    | string s => exact congrArg Json.string (Except.ok.inj h)
    | _ => cases h
  | word32 =>
    obtain ⟨n, hn, rfl⟩ := map_eq_ok_iff.mp h
    obtain ⟨hspelled, hlt⟩ := spelled_of_wordOfJson hv hn
    rwa [datum, Datum.SpelledBy, UInt32.toNat_ofNat_of_lt' hlt]
  | word64 =>
    obtain ⟨n, hn, rfl⟩ := map_eq_ok_iff.mp h
    obtain ⟨hspelled, hlt⟩ := spelled_of_wordOfJson hv hn
    rwa [datum, Datum.SpelledBy, UInt64.toNat_ofNat_of_lt' hlt]
  | amount => exact hv.spelledInteger h

end FieldKind

/-! ## Forms -/

namespace PayloadForm

/-- What the values of the fields say, by the names of the fields. -/
def dataOf : (fs : List (String × FieldKind)) → Values (fieldList fs) → List (String × Datum)
  | [], _ => []
  | (name, k) :: fs, (a, as) => (name, k.datum a) :: dataOf fs as

theorem names_dataOf : (fs : List (String × FieldKind)) → (vs : Values (fieldList fs)) →
    (dataOf fs vs).map Prod.fst = fs.map Prod.fst
  | [], _ => rfl
  | (name, _) :: fs, (_, as) => congrArg (name :: ·) (names_dataOf fs as)

theorem length_dataOf (fs : List (String × FieldKind)) (vs : Values (fieldList fs)) :
    (dataOf fs vs).length = fs.length := by
  simpa using congrArg List.length (names_dataOf fs vs)

/-! ### Lists -/

theorem valuesOfList_of_spelledBy (form : PayloadForm) (index : Nat) :
    {fs : List (String × FieldKind)} → {vs : Values (fieldList fs)} → {items : List Json} →
    List.Forall₂ (fun d v => d.2.SpelledBy v) (dataOf fs vs) items →
    valuesOfList form index fs items = .ok vs
  | [], (), [], _ => rfl
  | (_, k) :: fs, (a, as), v :: items, .cons ha has => by
    rw [valuesOfList]
    exact bind_eq_ok_iff.mpr ⟨a, FieldKind.ofJson_of_spelledBy ha,
      bind_eq_ok_iff.mpr ⟨as, valuesOfList_of_spelledBy form (index + 1) has, rfl⟩⟩

theorem spelledBy_of_valuesOfList (form : PayloadForm) (index : Nat) :
    {fs : List (String × FieldKind)} → {vs : Values (fieldList fs)} → {items : List Json} →
    (∀ v ∈ items, v.Formed) → valuesOfList form index fs items = .ok vs →
    fs.length ≤ items.length ∧
      List.Forall₂ (fun d v => d.2.SpelledBy v) (dataOf fs vs) (items.take fs.length)
  | [], (), items, _, _ => ⟨Nat.zero_le _, .nil⟩
  | (_, k) :: fs, (a, as), v :: items, hitems, h => by
    obtain ⟨hv, hitems⟩ := List.forall_mem_cons.mp hitems
    rw [valuesOfList] at h
    obtain ⟨b, hb, h⟩ := bind_eq_ok_iff.mp h
    obtain ⟨bs, hbs, h⟩ := bind_eq_ok_iff.mp h
    obtain ⟨rfl, rfl⟩ := Prod.mk.inj (Except.ok.inj h)
    obtain ⟨hlength, hmore⟩ := spelledBy_of_valuesOfList form (index + 1) hitems hbs
    exact ⟨Nat.succ_le_succ hlength, .cons (FieldKind.spelledBy_of_ofJson hv hb) hmore⟩

/-! ### Objects -/

section Object

variable {fields written : List (String × Json)}

theorem lookup_eq_some_of_mem {β : Type} : {l : List (String × β)} → (l.map Prod.fst).Nodup →
    {x : String × β} → x ∈ l → l.lookup x.1 = some x.2
  | (name, b) :: l, hnames, x, hx => by
    obtain ⟨hname, hnames⟩ := List.nodup_cons.mp hnames
    rcases List.mem_cons.mp hx with rfl | hx
    · exact List.lookup_cons_self
    · have hmem : x.1 ∈ l.map Prod.fst := List.mem_map_of_mem hx
      have hne : x.1 ≠ name := fun h => hname (h ▸ hmem)
      rw [List.lookup_cons, beq_false_of_ne hne]
      exact lookup_eq_some_of_mem hnames hx

theorem mem_of_lookup {β : Type} {l : List (String × β)} {name : String} {b : β}
    (h : l.lookup name = some b) : (name, b) ∈ l := by
  obtain ⟨before, after, rfl, -⟩ := List.lookup_eq_some_iff.mp h
  simp

theorem kinds_of_written : {fs : List (String × FieldKind)} → {vs : Values (fieldList fs)} →
    {written : List (String × Json)} → List.Forall₂ WrittenField (dataOf fs vs) written →
    ∀ x ∈ written, ∃ k a, (x.1, k) ∈ fs ∧ k.ofJson x.2 = .ok a
  | [], (), [], _ => nofun
  | (name, k) :: fs, (a, as), (_, v) :: written, .cons ⟨rfl, ha⟩ has => by
    refine List.forall_mem_cons.mpr
      ⟨⟨k, a, List.mem_cons_self, FieldKind.ofJson_of_spelledBy ha⟩, fun x hx => ?_⟩
    obtain ⟨l, b, hl, hb⟩ := kinds_of_written has x hx
    exact ⟨l, b, List.mem_cons_of_mem _ hl, hb⟩

theorem valuesOfObject_of_written : {fs : List (String × FieldKind)} →
    {vs : Values (fieldList fs)} → {written : List (String × Json)} →
    List.Forall₂ WrittenField (dataOf fs vs) written →
    (∀ x ∈ written, fields.lookup x.1 = some x.2) → valuesOfObject fields fs = .ok vs
  | [], (), [], _, _ => rfl
  | (name, k) :: fs, (a, as), (_, v) :: written, .cons ⟨rfl, ha⟩ has, hfound => by
    obtain ⟨hv, hfound⟩ := List.forall_mem_cons.mp hfound
    rw [valuesOfObject, hv]
    exact bind_eq_ok_iff.mpr ⟨a, FieldKind.ofJson_of_spelledBy ha,
      bind_eq_ok_iff.mpr ⟨as, valuesOfObject_of_written has hfound, rfl⟩⟩

theorem exists_written_of_valuesOfObject (hfields : ∀ x ∈ fields, x.2.Formed) :
    {fs : List (String × FieldKind)} → {vs : Values (fieldList fs)} →
    valuesOfObject fields fs = .ok vs →
    ∃ written, List.Forall₂ WrittenField (dataOf fs vs) written ∧ written ⊆ fields
  | [], (), _ => ⟨[], .nil, List.nil_subset _⟩
  | (name, k) :: fs, (a, as), h => by
    rw [valuesOfObject] at h
    split at h
    · cases h
    · next v hv =>
      obtain ⟨b, hb, h⟩ := bind_eq_ok_iff.mp h
      obtain ⟨bs, hbs, h⟩ := bind_eq_ok_iff.mp h
      obtain ⟨rfl, rfl⟩ := Prod.mk.inj (Except.ok.inj h)
      obtain ⟨written, hwritten, hsub⟩ := exists_written_of_valuesOfObject hfields hbs
      have hmem := mem_of_lookup hv
      exact ⟨(name, v) :: written,
        .cons ⟨rfl, FieldKind.spelledBy_of_ofJson (hfields _ hmem) hb⟩ hwritten,
        List.cons_subset.mpr ⟨hmem, hsub⟩⟩

theorem names_subset_of_checkFields {fs : List (String × FieldKind)} :
    {fields : List (String × Json)} → checkFields fs fields = .ok () →
    fields.map Prod.fst ⊆ fs.map Prod.fst
  | [], _ => List.nil_subset _
  | (name, v) :: fields, h => by
    rw [checkFields] at h
    split at h
    · cases h
    · next k hk =>
      obtain ⟨-, -, h⟩ := bind_eq_ok_iff.mp h
      obtain ⟨before, after, rfl, -⟩ := List.lookup_eq_some_iff.mp hk
      exact List.cons_subset.mpr ⟨by simp, names_subset_of_checkFields h⟩

theorem checkFields_of_forall {fs : List (String × FieldKind)} :
    {fields : List (String × Json)} →
    (∀ x ∈ fields, ∃ k a, fs.lookup x.1 = some k ∧ k.ofJson x.2 = .ok a) →
    checkFields fs fields = .ok ()
  | [], _ => rfl
  | (name, v) :: fields, h => by
    obtain ⟨⟨k, a, hk, ha⟩, h⟩ := List.forall_mem_cons.mp h
    rw [checkFields, hk]
    exact bind_eq_ok_iff.mpr ⟨a, ha, checkFields_of_forall h⟩

theorem names_of_written {data : List (String × Datum)}
    (h : List.Forall₂ WrittenField data written) : written.map Prod.fst = data.map Prod.fst := by
  induction h with
  | nil => rfl
  | cons hfield _ ih => exact congrArg₂ List.cons hfield.1 ih

end Object

/-! ### Values -/

variable {form : PayloadForm} {vs : Values form.record.fields} {v : Json}

/-- What is written in the form is read. -/
theorem ofJson_of_writtenAs (hnames : (form.fields.map Prod.fst).Nodup)
    (h : WrittenAs (dataOf form.fields vs) v) : form.ofJson v = .ok vs := by
  cases h with
  | @object fields written hperm hwritten =>
    have hwrittenNames : written.map Prod.fst = form.fields.map Prod.fst :=
      (names_of_written hwritten).trans (names_dataOf _ vs)
    have hfields : (fields.map Prod.fst).Nodup := by
      rwa [(hperm.map Prod.fst).nodup_iff, hwrittenNames]
    have hchecked : checkFields form.fields fields = .ok () := by
      refine checkFields_of_forall fun x hx => ?_
      obtain ⟨k, a, hk, ha⟩ := kinds_of_written hwritten x (hperm.mem_iff.mp hx)
      exact ⟨k, a, lookup_eq_some_of_mem hnames hk, ha⟩
    have hvalues : valuesOfObject fields form.fields = .ok vs :=
      valuesOfObject_of_written hwritten fun x hx =>
        lookup_eq_some_of_mem hfields (hperm.mem_iff.mpr hx)
    exact bind_eq_ok_iff.mpr ⟨(), hchecked, hvalues⟩
  | @array items hitems =>
    have hlength : items.length ≤ form.fields.length :=
      (hitems.length_eq.symm.trans (length_dataOf _ vs)).le
    exact bind_eq_ok_iff.mpr ⟨vs, valuesOfList_of_spelledBy form 0 hitems, if_pos hlength⟩

/-- A formed value that is read is written in the form. -/
theorem writtenAs_of_ofJson (hnames : (form.fields.map Prod.fst).Nodup) (hv : v.Formed)
    (h : form.ofJson v = .ok vs) : WrittenAs (dataOf form.fields vs) v := by
  cases hv with
  | @object fields hsorted _ hformed =>
    obtain ⟨u, hchecked, hvalues⟩ := bind_eq_ok_iff.mp h
    obtain ⟨written, hwritten, hsub⟩ := exists_written_of_valuesOfObject hformed hvalues
    have hwrittenNames : written.map Prod.fst = form.fields.map Prod.fst :=
      (names_of_written hwritten).trans (names_dataOf _ vs)
    have hdistinct : (written.map Prod.fst).Nodup := hwrittenNames ▸ hnames
    -- Both have different names and the same ones, so neither has a field that the other lacks.
    have hle : fields.length ≤ written.length := by
      have hfields : (fields.map Prod.fst).Nodup := hsorted.imp fun h => h.ne
      have hnamesSub : fields.map Prod.fst ⊆ written.map Prod.fst :=
        hwrittenNames ▸ names_subset_of_checkFields hchecked
      simpa using (List.subperm_of_subset hfields hnamesSub).length_le
    have hsubperm := List.subperm_of_subset (List.Nodup.of_map _ hdistinct) hsub
    exact .object (hsubperm.perm_of_length_le hle).symm hwritten
  | @array items hformed =>
    obtain ⟨ws, hws, h⟩ := bind_eq_ok_iff.mp h
    split at h
    · next hle =>
      obtain rfl := Except.ok.inj h
      obtain ⟨-, hitems⟩ := spelledBy_of_valuesOfList form 0 hformed hws
      rw [List.take_of_length_le hle] at hitems
      exact .array hitems
    · cases h
  | null | bool | number | string => cases h

end PayloadForm

end EventIndex
