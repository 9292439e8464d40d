import EventIndex.Json.Record
import EventIndex.Payload.Basic

/-!
# Payloads in JSON

The form of each payload: the names and kinds of its fields in order. A payload has these fields and
no others. It is read from a value that was read before, or straight from text.
-/

namespace EventIndex

open Json

inductive FieldKind where
  | text
  | word32
  | word64
  | amount
deriving DecidableEq, Repr

namespace FieldKind

def type : FieldKind → Type
  | text => String
  | word32 => UInt32
  | word64 => UInt64
  | amount => Amount

/-- The integers that a word of `size` bits holds are read like amounts. -/
def word (size : Nat) : Reader Nat :=
  (Reader.integer 0 (Nat.pow 2 size - 1 : Nat)).map Int.toNat

def codec : (k : FieldKind) → Codec k.type
  | text => .string
  | word32 => ⟨(word 32).map UInt32.ofNat, fun n => Json.ofNat n.toNat⟩
  | word64 => ⟨(word 64).map UInt64.ofNat, fun n => Json.ofNat n.toNat⟩
  | amount => .amount

def wordOfJson (size : Nat) (v : Json) : Except Json.Error Nat := do
  return (← inRange 0 (Nat.pow 2 size - 1 : Nat) (← amountOfJson v)).toNat

/-- The field of a value that was read before. -/
def ofJson : (k : FieldKind) → Json → Except Json.Error k.type
  | text, .string s => .ok s
  | text, v => .error (.invalidType v.found "a string")
  | word32, v => (wordOfJson 32 v).map UInt32.ofNat
  | word64, v => (wordOfJson 64 v).map UInt64.ofNat
  | amount, v => amountOfJson v

def field (k : FieldKind) (name : String) : Field :=
  k.codec.field name

end FieldKind

structure PayloadForm where
  name : String
  fields : List (String × FieldKind)

namespace PayloadForm

def fieldList (fs : List (String × FieldKind)) : List Field :=
  fs.map fun (name, k) => k.field name

def record (form : PayloadForm) : RecordForm :=
  ⟨form.name, true, fieldList form.fields⟩

/-- The first field that no form has, or whose value has the wrong kind, in order of names. -/
def checkFields (fs : List (String × FieldKind)) : List (String × Json) → Except Json.Error Unit
  | [] => .ok ()
  | (name, v) :: rest =>
    match fs.lookup name with
    | none => .error (.unknownField name (fs.map Prod.fst))
    | some k => do
      let _ ← k.ofJson v
      checkFields fs rest

/-- The values of the fields of an object, in the order of the form. -/
def valuesOfObject (object : List (String × Json)) :
    (fs : List (String × FieldKind)) → Except Json.Error (Values (fieldList fs))
  | [] => .ok ()
  | (name, k) :: fs =>
    match object.lookup name with
    | none => .error (.missingField name)
    | some v => do
      let a ← k.ofJson v
      let as ← valuesOfObject object fs
      pure (a, as)

/-- The values of the fields given as a list, the first of which has the number `index`. -/
def valuesOfList (form : PayloadForm) (index : Nat) :
    (fs : List (String × FieldKind)) → List Json → Except Json.Error (Values (fieldList fs))
  | [], _ => .ok ()
  | _ :: _, [] => .error (.invalidLength index form.record.listForm)
  | (_, k) :: fs, v :: vs => do
    let a ← k.ofJson v
    let as ← valuesOfList form (index + 1) fs vs
    pure (a, as)

def ofJson (form : PayloadForm) : Json → Except Json.Error (Values form.record.fields)
  | .object fields => do
    checkFields form.fields fields
    valuesOfObject fields form.fields
  | .array items => do
    let vs ← valuesOfList form 0 form.fields items
    if items.length ≤ form.fields.length then pure vs
    else throw (.invalidLength items.length "fewer elements in array")
  | v => .error (.invalidType v.found s!"struct {form.name}")

end PayloadForm

structure PayloadCodec (α : Type) where
  form : PayloadForm
  ofValues : Values form.record.fields → α
  toValues : α → Values form.record.fields

namespace PayloadCodec

variable {α : Type}

def codec (c : PayloadCodec α) : Codec α :=
  c.form.record.codec c.ofValues c.toValues

def ofJson (c : PayloadCodec α) (v : Json) : Except Json.Error α :=
  (c.form.ofJson v).map c.ofValues

end PayloadCodec

def TradeExecuted.codec : PayloadCodec TradeExecuted where
  form := ⟨"TradeExecuted", [("trade_id", .word64), ("maker", .text), ("taker", .text),
    ("base_asset", .text), ("quote_asset", .text), ("base_amount", .amount),
    ("quote_amount", .amount), ("executed_at", .word64)]⟩
  ofValues := fun (id, maker, taker, base, quote, baseAmount, quoteAmount, at', ()) =>
    ⟨id, maker, taker, base, quote, baseAmount, quoteAmount, at'⟩
  toValues p := (p.tradeId, p.maker, p.taker, p.baseAsset, p.quoteAsset, p.baseAmount,
    p.quoteAmount, p.executedAt, ())

def ProposalCreated.codec : PayloadCodec ProposalCreated where
  form := ⟨"ProposalCreated", [("proposal_id", .word64), ("proposer", .text), ("title", .text),
    ("approval_threshold", .word32), ("created_at", .word64)]⟩
  ofValues := fun (id, proposer, title, threshold, at', ()) => ⟨id, proposer, title, threshold, at'⟩
  toValues p := (p.proposalId, p.proposer, p.title, p.approvalThreshold, p.createdAt, ())

def ProposalApproved.codec : PayloadCodec ProposalApproved where
  form := ⟨"ProposalApproved", [("proposal_id", .word64), ("approver", .text),
    ("approved_at", .word64)]⟩
  ofValues := fun (id, approver, at', ()) => ⟨id, approver, at'⟩
  toValues p := (p.proposalId, p.approver, p.approvedAt, ())

def ProposalRejected.codec : PayloadCodec ProposalRejected where
  form := ⟨"ProposalRejected", [("proposal_id", .word64), ("rejected_by", .text),
    ("rejected_at", .word64)]⟩
  ofValues := fun (id, rejectedBy, at', ()) => ⟨id, rejectedBy, at'⟩
  toValues p := (p.proposalId, p.rejectedBy, p.rejectedAt, ())

def ProposalCancelled.codec : PayloadCodec ProposalCancelled where
  form := ⟨"ProposalCancelled", [("proposal_id", .word64), ("cancelled_by", .text),
    ("cancelled_at", .word64)]⟩
  ofValues := fun (id, cancelledBy, at', ()) => ⟨id, cancelledBy, at'⟩
  toValues p := (p.proposalId, p.cancelledBy, p.cancelledAt, ())

def ProposalExecuted.codec : PayloadCodec ProposalExecuted where
  form := ⟨"ProposalExecuted", [("proposal_id", .word64), ("executor", .text),
    ("executed_at", .word64)]⟩
  ofValues := fun (id, executor, at', ()) => ⟨id, executor, at'⟩
  toValues p := (p.proposalId, p.executor, p.executedAt, ())

def RewardAdded.codec : PayloadCodec RewardAdded where
  form := ⟨"RewardAdded", [("reward_id", .word64), ("recipient", .text), ("amount", .amount),
    ("reason", .text), ("added_at", .word64)]⟩
  ofValues := fun (id, recipient, amount, reason, at', ()) => ⟨id, recipient, amount, reason, at'⟩
  toValues p := (p.rewardId, p.recipient, p.amount, p.reason, p.addedAt, ())

def RewardClaimed.codec : PayloadCodec RewardClaimed where
  form := ⟨"RewardClaimed", [("reward_id", .word64), ("recipient", .text), ("amount", .amount),
    ("claimed_at", .word64)]⟩
  ofValues := fun (id, recipient, amount, at', ()) => ⟨id, recipient, amount, at'⟩
  toValues p := (p.rewardId, p.recipient, p.amount, p.claimedAt, ())

def GrantCreated.codec : PayloadCodec GrantCreated where
  form := ⟨"GrantEvent", [("grant_id", .word64), ("beneficiary", .text), ("amount", .amount),
    ("start_time", .word64), ("cliff_seconds", .word64), ("duration_seconds", .word64),
    ("granted_at", .word64)]⟩
  ofValues := fun (id, beneficiary, amount, start, cliff, duration, at', ()) =>
    ⟨id, beneficiary, amount, start, cliff, duration, at'⟩
  toValues p := (p.grantId, p.beneficiary, p.amount, p.startTime, p.cliffSeconds,
    p.durationSeconds, p.grantedAt, ())

def GrantClaimed.codec : PayloadCodec GrantClaimed where
  form := ⟨"ClaimEvent", [("grant_id", .word64), ("beneficiary", .text), ("amount", .amount),
    ("claimed_at", .word64)]⟩
  ofValues := fun (id, beneficiary, amount, at', ()) => ⟨id, beneficiary, amount, at'⟩
  toValues p := (p.grantId, p.beneficiary, p.amount, p.claimedAt, ())

def GrantRevoked.codec : PayloadCodec GrantRevoked where
  form := ⟨"RevokeEvent", [("grant_id", .word64), ("revoked_at", .word64),
    ("unvested_amount", .amount)]⟩
  ofValues := fun (id, at', unvested, ()) => ⟨id, at', unvested⟩
  toValues p := (p.grantId, p.revokedAt, p.unvestedAmount, ())

def Payload.toJson : Payload → Json
  | tradeExecuted p => TradeExecuted.codec.codec.toJson p
  | proposalCreated p => ProposalCreated.codec.codec.toJson p
  | proposalApproved p => ProposalApproved.codec.codec.toJson p
  | proposalRejected p => ProposalRejected.codec.codec.toJson p
  | proposalCancelled p => ProposalCancelled.codec.codec.toJson p
  | proposalExecuted p => ProposalExecuted.codec.codec.toJson p
  | rewardAdded p => RewardAdded.codec.codec.toJson p
  | rewardClaimed p => RewardClaimed.codec.codec.toJson p
  | grant p => GrantCreated.codec.codec.toJson p
  | claim p => GrantClaimed.codec.codec.toJson p
  | revoke p => GrantRevoked.codec.codec.toJson p

end EventIndex
