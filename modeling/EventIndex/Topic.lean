import EventIndex.Json.Reader

/-!
# Topics

The eleven topics that the contracts emit, and every other topic by its name.
-/

namespace EventIndex

open Json

inductive Topic where
  | tradeExecuted
  | proposalCreated
  | proposalApproved
  | proposalRejected
  | proposalCancelled
  | proposalExecuted
  | rewardAdded
  | rewardClaimed
  | grant
  | claim
  | revoke
  | unknown (name : String)
deriving DecidableEq, Repr

namespace Topic

/-- The topics that the indexer understands. -/
def known : List Topic :=
  [tradeExecuted, proposalCreated, proposalApproved, proposalRejected, proposalCancelled,
    proposalExecuted, rewardAdded, rewardClaimed, grant, claim, revoke]

def name : Topic → String
  | tradeExecuted => "TRADE_EXECUTED"
  | proposalCreated => "PROPOSAL_CREATED"
  | proposalApproved => "PROPOSAL_APPROVED"
  | proposalRejected => "PROPOSAL_REJECTED"
  | proposalCancelled => "PROPOSAL_CANCELLED"
  | proposalExecuted => "PROPOSAL_EXECUTED"
  | rewardAdded => "REWARD_ADDED"
  | rewardClaimed => "REWARD_CLAIMED"
  | grant => "GRANT"
  | claim => "CLAIM"
  | revoke => "REVOKE"
  | unknown name => name

/-- The topic with this name, letter by letter. -/
def classify (s : String) : Topic :=
  (known.find? (·.name == s)).getD (.unknown s)

def isKnown : Topic → Bool
  | unknown _ => false
  | _ => true

/-- The name of a known topic among the variants of its type in JSON. -/
def variantName : Topic → String
  | tradeExecuted => "TradeExecuted"
  | proposalCreated => "ProposalCreated"
  | proposalApproved => "ProposalApproved"
  | proposalRejected => "ProposalRejected"
  | proposalCancelled => "ProposalCancelled"
  | proposalExecuted => "ProposalExecuted"
  | rewardAdded => "RewardAdded"
  | rewardClaimed => "RewardClaimed"
  | grant => "Grant"
  | claim => "Claim"
  | revoke => "Revoke"
  | unknown _ => "Unknown"

def toJson : Topic → Json
  | unknown name => .object [("Unknown", .string name)]
  | topic => .string topic.variantName

def ofVariant (s : String) : Except Json.Error Topic :=
  match known.find? (·.variantName == s) with
  | some topic => .ok topic
  | none => .error (.unknownVariant s (known.map variantName ++ ["Unknown"]))

/-- Reads a variant; an unknown topic stands with its name. -/
def reader : Reader Topic :=
  .variant
    (fun s =>
      if s = "Unknown" then .error (.invalidType .unitVariant "newtype variant") else ofVariant s)
    fun s => do
      if s = "Unknown" then
        colon
        return .unknown (← stringFor "a string")
      else
        match ofVariant s with
        | .error e => throw e
        | .ok topic =>
          colon
          Reader.unitPayload
          pure topic

end Topic

end EventIndex
