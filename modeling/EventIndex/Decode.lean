import EventIndex.Payload.Form
import EventIndex.Position

/-!
# Decoding

An event of a known topic is decoded into the payload of that topic, which must have the topic's
form and make sense by itself. An event of another topic keeps its payload as text.
-/

namespace EventIndex

/-- What an event says. -/
inductive Decoded where
  | recognized (payload : Payload)
  | unrecognized (topic : String) (raw : String)
deriving DecidableEq

namespace Decoded

def topic : Decoded → Topic
  | recognized p => p.topic
  | unrecognized topic _ => .unknown topic

def isUnrecognized : Decoded → Bool
  | recognized _ => false
  | unrecognized .. => true

/-- The typed payload as a value; unrecognized events have none. -/
def payloadJson : Decoded → Option Json
  | recognized p => some p.toJson
  | unrecognized .. => none

end Decoded

inductive DecodeFlaw where
  | form (e : Json.Error)
  | negative (field : String) (amount : Amount)
  | notPositive (field : String) (amount : Amount)
  | noThreshold
  | cliffAfterEnd (cliff duration : UInt64)
deriving DecidableEq

def DecodeFlaw.message : DecodeFlaw → String
  | form e => e.message
  | negative field amount => s!"{field} must be non-negative, got {amount.text}"
  | notPositive field amount => s!"{field} must be positive, got {amount.text}"
  | noThreshold => "approval_threshold must be at least 1"
  | cliffAfterEnd cliff duration =>
    s!"cliff_seconds ({cliff.toNat}) exceeds duration_seconds ({duration.toNat})"

structure DecodeError where
  topic : Topic
  position : Position
  flaw : DecodeFlaw
  payload : Json
deriving DecidableEq

def DecodeError.message (e : DecodeError) : String :=
  s!"failed to decode {e.topic.name} at {e.position.text}: {e.flaw.message}"

def requireNonNegative (field : String) (a : Amount) : Except DecodeFlaw Unit :=
  if a.val < 0 then .error (.negative field a) else .ok ()

def requirePositive (field : String) (a : Amount) : Except DecodeFlaw Unit :=
  if a.val ≤ 0 then .error (.notPositive field a) else .ok ()

/-- What must hold of a payload beyond its form. -/
def Payload.check : Payload → Except DecodeFlaw Unit
  | tradeExecuted p => do
    requireNonNegative "base_amount" p.baseAmount
    requireNonNegative "quote_amount" p.quoteAmount
  | proposalCreated p => if p.approvalThreshold = 0 then .error .noThreshold else .ok ()
  | rewardAdded p => requireNonNegative "amount" p.amount
  | rewardClaimed p => requireNonNegative "amount" p.amount
  | grant p => do
    requirePositive "amount" p.amount
    if p.durationSeconds < p.cliffSeconds then
      throw (.cliffAfterEnd p.cliffSeconds p.durationSeconds)
  | claim p => requirePositive "amount" p.amount
  | revoke p => requireNonNegative "unvested_amount" p.unvestedAmount
  | proposalApproved _ | proposalRejected _ | proposalCancelled _ | proposalExecuted _ => .ok ()

/-- The payload of a known topic, without its check; `none` for other topics. -/
def Payload.ofJson? (topic : Topic) (v : Json) : Option (Except Json.Error Payload) :=
  match topic with
  | .tradeExecuted => some ((TradeExecuted.codec.ofJson v).map tradeExecuted)
  | .proposalCreated => some ((ProposalCreated.codec.ofJson v).map proposalCreated)
  | .proposalApproved => some ((ProposalApproved.codec.ofJson v).map proposalApproved)
  | .proposalRejected => some ((ProposalRejected.codec.ofJson v).map proposalRejected)
  | .proposalCancelled => some ((ProposalCancelled.codec.ofJson v).map proposalCancelled)
  | .proposalExecuted => some ((ProposalExecuted.codec.ofJson v).map proposalExecuted)
  | .rewardAdded => some ((RewardAdded.codec.ofJson v).map rewardAdded)
  | .rewardClaimed => some ((RewardClaimed.codec.ofJson v).map rewardClaimed)
  | .grant => some ((GrantCreated.codec.ofJson v).map grant)
  | .claim => some ((GrantClaimed.codec.ofJson v).map claim)
  | .revoke => some ((GrantRevoked.codec.ofJson v).map revoke)
  | .unknown _ => none

def decodePayload (topic : Topic) (v : Json) : Except DecodeFlaw Decoded :=
  match Payload.ofJson? topic v with
  | none => .ok (.unrecognized topic.name v.text)
  | some (.error e) => .error (.form e)
  | some (.ok p) => p.check.map fun _ => .recognized p

def decode (topic : Topic) (v : Json) (position : Position) : Except DecodeError Decoded :=
  (decodePayload topic v).mapError fun flaw => ⟨topic, position, flaw, v⟩

end EventIndex
