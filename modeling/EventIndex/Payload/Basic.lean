import EventIndex.Amount
import EventIndex.Topic

/-!
# Payloads

What an event of each known topic says. Times are seconds on the chain.
-/

namespace EventIndex

structure TradeExecuted where
  tradeId : UInt64
  maker : String
  taker : String
  baseAsset : String
  quoteAsset : String
  baseAmount : Amount
  quoteAmount : Amount
  executedAt : UInt64
deriving DecidableEq

structure ProposalCreated where
  proposalId : UInt64
  proposer : String
  title : String
  approvalThreshold : UInt32
  createdAt : UInt64
deriving DecidableEq

structure ProposalApproved where
  proposalId : UInt64
  approver : String
  approvedAt : UInt64
deriving DecidableEq

structure ProposalRejected where
  proposalId : UInt64
  rejectedBy : String
  rejectedAt : UInt64
deriving DecidableEq

structure ProposalCancelled where
  proposalId : UInt64
  cancelledBy : String
  cancelledAt : UInt64
deriving DecidableEq

structure ProposalExecuted where
  proposalId : UInt64
  executor : String
  executedAt : UInt64
deriving DecidableEq

structure RewardAdded where
  rewardId : UInt64
  recipient : String
  amount : Amount
  reason : String
  addedAt : UInt64
deriving DecidableEq

structure RewardClaimed where
  rewardId : UInt64
  recipient : String
  amount : Amount
  claimedAt : UInt64
deriving DecidableEq

/-- A vesting grant. Nothing of it vests before the cliff. -/
structure GrantCreated where
  grantId : UInt64
  beneficiary : String
  amount : Amount
  startTime : UInt64
  cliffSeconds : UInt64
  durationSeconds : UInt64
  grantedAt : UInt64
deriving DecidableEq

structure GrantClaimed where
  grantId : UInt64
  beneficiary : String
  amount : Amount
  claimedAt : UInt64
deriving DecidableEq

structure GrantRevoked where
  grantId : UInt64
  revokedAt : UInt64
  unvestedAmount : Amount
deriving DecidableEq

/-- What an event of a known topic says. -/
inductive Payload where
  | tradeExecuted (p : TradeExecuted)
  | proposalCreated (p : ProposalCreated)
  | proposalApproved (p : ProposalApproved)
  | proposalRejected (p : ProposalRejected)
  | proposalCancelled (p : ProposalCancelled)
  | proposalExecuted (p : ProposalExecuted)
  | rewardAdded (p : RewardAdded)
  | rewardClaimed (p : RewardClaimed)
  | grant (p : GrantCreated)
  | claim (p : GrantClaimed)
  | revoke (p : GrantRevoked)
deriving DecidableEq

def Payload.topic : Payload → Topic
  | tradeExecuted _ => .tradeExecuted
  | proposalCreated _ => .proposalCreated
  | proposalApproved _ => .proposalApproved
  | proposalRejected _ => .proposalRejected
  | proposalCancelled _ => .proposalCancelled
  | proposalExecuted _ => .proposalExecuted
  | rewardAdded _ => .rewardAdded
  | rewardClaimed _ => .rewardClaimed
  | grant _ => .grant
  | claim _ => .claim
  | revoke _ => .revoke

end EventIndex
