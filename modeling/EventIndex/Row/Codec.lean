import EventIndex.Position.Codec
import EventIndex.Row.Basic

/-!
# Rows in JSON

The text of a snapshot is the same for equal snapshots only, so snapshots can be compared by it.
-/

namespace EventIndex

open Json

def ProposalStatus.codec : Codec ProposalStatus :=
  Codec.choice (all.map fun s => (s.name, s)) name

def GrantStatus.codec : Codec GrantStatus :=
  Codec.choice (all.map fun s => (s.name, s)) name

namespace Trade

def form : RecordForm where
  name := "TradeRecord"
  strict := false
  fields := [ContractId.codec.field "contract_id", Codec.word64.field "trade_id",
    Codec.string.field "maker", Codec.string.field "taker", Codec.string.field "base_asset",
    Codec.string.field "quote_asset", Codec.amount.field "base_amount",
    Codec.amount.field "quote_amount", Codec.word64.field "executed_at",
    Position.codec.field "position"]

def codec : Codec Trade :=
  form.codec
    (fun (contract, tradeId, maker, taker, baseAsset, quoteAsset, baseAmount, quoteAmount,
        executedAt, position, ()) =>
      ⟨contract, tradeId, maker, taker, baseAsset, quoteAsset, baseAmount, quoteAmount,
        executedAt, position⟩)
    fun r => (r.contract, r.tradeId, r.maker, r.taker, r.baseAsset, r.quoteAsset, r.baseAmount,
      r.quoteAmount, r.executedAt, r.position, ())

end Trade

namespace Proposal

def form : RecordForm where
  name := "ProposalRecord"
  strict := false
  fields := [ContractId.codec.field "contract_id", Codec.word64.field "proposal_id",
    Codec.string.field "proposer", Codec.string.field "title",
    Codec.word32.field "approval_threshold", Codec.word32.field "current_approvals",
    ProposalStatus.codec.field "status", Codec.word64.field "created_at",
    Codec.word64.optionalField "closed_at", Position.codec.field "created_position",
    Position.codec.field "last_position"]

def codec : Codec Proposal :=
  form.codec
    (fun (contract, proposalId, proposer, title, approvalThreshold, currentApprovals, status,
        createdAt, closedAt, createdPosition, lastPosition, ()) =>
      ⟨contract, proposalId, proposer, title, approvalThreshold, currentApprovals, status,
        createdAt, closedAt, createdPosition, lastPosition⟩)
    fun r => (r.contract, r.proposalId, r.proposer, r.title, r.approvalThreshold,
      r.currentApprovals, r.status, r.createdAt, r.closedAt, r.createdPosition, r.lastPosition, ())

end Proposal

namespace Reward

def form : RecordForm where
  name := "RewardRecord"
  strict := false
  fields := [ContractId.codec.field "contract_id", Codec.word64.field "reward_id",
    Codec.string.field "recipient", Codec.amount.field "amount", Codec.string.field "reason",
    Codec.word64.field "added_at", Codec.bool.field "claimed",
    Codec.amount.optional.field "claimed_amount", Codec.word64.optionalField "claimed_at",
    Position.codec.field "created_position", Position.codec.optionalField "claim_position"]

def codec : Codec Reward :=
  form.codec
    (fun (contract, rewardId, recipient, amount, reason, addedAt, claimed, claimedAmount, claimedAt,
        createdPosition, claimPosition, ()) =>
      ⟨contract, rewardId, recipient, amount, reason, addedAt, claimed, claimedAmount, claimedAt,
        createdPosition, claimPosition⟩)
    fun r => (r.contract, r.rewardId, r.recipient, r.amount, r.reason, r.addedAt, r.claimed,
      r.claimedAmount, r.claimedAt, r.createdPosition, r.claimPosition, ())

end Reward

namespace Grant

def form : RecordForm where
  name := "GrantRecord"
  strict := false
  fields := [ContractId.codec.field "contract_id", Codec.word64.field "grant_id",
    Codec.string.field "beneficiary", Codec.amount.field "amount", Codec.word64.field "start_time",
    Codec.word64.field "cliff_seconds", Codec.word64.field "duration_seconds",
    Codec.word64.field "granted_at", Codec.amount.field "total_claimed",
    Codec.word32.field "claim_count", GrantStatus.codec.field "status",
    Codec.word64.optionalField "revoked_at", Codec.amount.optional.field "unvested_amount",
    Position.codec.field "created_position", Position.codec.field "last_position"]

def codec : Codec Grant :=
  form.codec
    (fun (contract, grantId, beneficiary, amount, startTime, cliffSeconds, durationSeconds,
        grantedAt, totalClaimed, claimCount, status, revokedAt, unvestedAmount, createdPosition,
        lastPosition, ()) =>
      ⟨contract, grantId, beneficiary, amount, startTime, cliffSeconds, durationSeconds, grantedAt,
        totalClaimed, claimCount, status, revokedAt, unvestedAmount, createdPosition, lastPosition⟩)
    fun r => (r.contract, r.grantId, r.beneficiary, r.amount, r.startTime, r.cliffSeconds,
      r.durationSeconds, r.grantedAt, r.totalClaimed, r.claimCount, r.status, r.revokedAt,
      r.unvestedAmount, r.createdPosition, r.lastPosition, ())

end Grant

namespace Quarantine

def form : RecordForm where
  name := "QuarantineRecord"
  strict := false
  fields := [ContractId.codec.field "contract_id", Entity.codec.field "entity",
    Position.codec.field "position", Codec.string.field "reason"]

def codec : Codec Quarantine :=
  form.codec (fun (contract, entity, position, reason, ()) => ⟨contract, entity, position, reason⟩)
    fun r => (r.contract, r.entity, r.position, r.reason, ())

end Quarantine

namespace Snapshot

def form : RecordForm where
  name := "ProjectionSnapshot"
  strict := false
  fields := [Trade.codec.list.field "trades", Proposal.codec.list.field "proposals",
    Reward.codec.list.field "rewards", Grant.codec.list.field "grants",
    Quarantine.codec.list.field "quarantined"]

def codec : Codec Snapshot :=
  form.codec
    (fun (trades, proposals, rewards, grants, quarantined, ()) =>
      ⟨trades, proposals, rewards, grants, quarantined⟩)
    fun s => (s.trades, s.proposals, s.rewards, s.grants, s.quarantined, ())

/-- The text by which snapshots are compared. -/
def canonicalText (s : Snapshot) : String :=
  codec.text s

end Snapshot

end EventIndex
