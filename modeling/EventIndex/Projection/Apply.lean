import EventIndex.Decode
import EventIndex.Projection.Transition
import EventIndex.Store.Request

/-!
# Applying events

An event is applied to the row of its entity within the transaction. A refused event freezes its
entity: the refusal is stored in the same transaction, and all later events of the entity are
refused.
-/

namespace EventIndex

namespace Payload

def kind : Payload → EntityKind
  | tradeExecuted _ => .trade
  | proposalCreated _ | proposalApproved _ | proposalRejected _ | proposalCancelled _
  | proposalExecuted _ => .proposal
  | rewardAdded _ | rewardClaimed _ => .reward
  | grant _ | claim _ | revoke _ => .grant

def id : Payload → UInt64
  | tradeExecuted e => e.tradeId
  | proposalCreated e => e.proposalId
  | proposalApproved e => e.proposalId
  | proposalRejected e => e.proposalId
  | proposalCancelled e => e.proposalId
  | proposalExecuted e => e.proposalId
  | rewardAdded e => e.rewardId
  | rewardClaimed e => e.rewardId
  | grant e => e.grantId
  | claim e => e.grantId
  | revoke e => e.grantId

def target (e : Payload) : Entity :=
  ⟨e.kind, e.id⟩

/-- The transition that the event makes on the row of its entity. -/
def step (contract : ContractId) (p : Position) : (e : Payload) → Option e.kind.Row →
    Step e.kind.Row
  | tradeExecuted e, current => Trade.execute current contract e p
  | proposalCreated e, current => Proposal.create current contract e p
  | proposalApproved e, current => Proposal.act current e.proposalId .approve p
  | proposalRejected e, current => Proposal.act current e.proposalId (.reject e.rejectedAt) p
  | proposalCancelled e, current => Proposal.act current e.proposalId (.cancel e.cancelledAt) p
  | proposalExecuted e, current => Proposal.act current e.proposalId (.execute e.executedAt) p
  | rewardAdded e, current => Reward.add current contract e p
  | rewardClaimed e, current => Reward.claim current e p
  | grant e, current => Grant.create current contract e p
  | claim e, current => Grant.claim current e p
  | revoke e, current => Grant.revoke current e p

/-- What there is to remark on a row that an event is about to change: a proposal is executed
although it lacks approvals. -/
def remark? : (e : Payload) → Option e.kind.Row → Option Line
  | proposalExecuted e, some (old : Proposal) =>
    if old.quorumReached then none
    else some (.warn "proposal executed below approval threshold"
      [("contract", old.contract.address), ("proposal_id", toString e.proposalId.toNat),
        ("approvals", toString old.currentApprovals.toNat),
        ("threshold", toString old.approvalThreshold.toNat)])
  | _, _ => none

end Payload

/-- The entity that an event is about; events of unknown topics are about none. -/
def Decoded.target? : Decoded → Option Entity
  | recognized e => some e.target
  | unrecognized .. => none

inductive Applied where
  | written
  | unchanged
  | ignored
deriving DecidableEq, Repr

/-- Freezes the entity of a refused event. -/
def quarantine (contract : ContractId) (p : Position) (r : Refusal) : Session Unit := do
  Session.note (.warn "quarantining entity"
    [("contract", contract.address), ("position", p.text), ("entity", r.entity.text),
      ("error", r.message)])
  Session.ask (.saveQuarantine ⟨contract, r.entity, p, r.message⟩)

/-- Applies an event to an entity that is not frozen. -/
def applyToRow (contract : ContractId) (p : Position) (e : Payload) :
    Session (Except Refusal Applied) := do
  let current ← Session.ask (.row e.kind e.id)
  match e.step contract p current with
  | .error r =>
    quarantine contract p r
    pure (.error r)
  | .ok .unchanged => pure (.ok .unchanged)
  | .ok (.write row) =>
    if let some line := e.remark? current then Session.note line
    Session.ask (.saveRow e.kind row)
    pure (.ok .written)

def apply (contract : ContractId) (p : Position) : Decoded → Session (Except Refusal Applied)
  | .unrecognized .. => pure (.ok .ignored)
  | .recognized e => do
    match (← Session.ask (.quarantine e.target)) with
    | some q => pure (.error (.quarantined e.target q.position))
    | none => applyToRow contract p e

end EventIndex
