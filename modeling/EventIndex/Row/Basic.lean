import EventIndex.Amount
import EventIndex.Entity
import EventIndex.Position

/-!
# Rows

The state of the entities of a contract as its events leave it. A row keeps the positions of the
events that made it.
-/

namespace EventIndex

/-- A trade never changes once it is recorded. -/
structure Trade where
  contract : ContractId
  tradeId : UInt64
  maker : String
  taker : String
  baseAsset : String
  quoteAsset : String
  baseAmount : Amount
  quoteAmount : Amount
  executedAt : UInt64
  position : Position
deriving DecidableEq

inductive ProposalStatus where
  | pending
  | executed
  | rejected
  | cancelled
deriving DecidableEq, Repr

namespace ProposalStatus

def all : List ProposalStatus :=
  [pending, executed, rejected, cancelled]

def name : ProposalStatus → String
  | pending => "pending"
  | executed => "executed"
  | rejected => "rejected"
  | cancelled => "cancelled"

def ofName? (s : String) : Option ProposalStatus :=
  all.find? (·.name == s)

/-- Approvals accumulate while a proposal is pending; every other status is final. -/
def isTerminal (s : ProposalStatus) : Bool :=
  s ≠ pending

@[simp] theorem ofName?_name (s : ProposalStatus) : ofName? s.name = some s := by
  cases s <;> rfl

end ProposalStatus

structure Proposal where
  contract : ContractId
  proposalId : UInt64
  proposer : String
  title : String
  approvalThreshold : UInt32
  currentApprovals : UInt32
  status : ProposalStatus
  createdAt : UInt64
  /-- When the proposal reached its final status. -/
  closedAt : Option UInt64
  createdPosition : Position
  lastPosition : Position
deriving DecidableEq

def Proposal.quorumReached (r : Proposal) : Bool :=
  r.approvalThreshold ≤ r.currentApprovals

structure Reward where
  contract : ContractId
  rewardId : UInt64
  recipient : String
  amount : Amount
  reason : String
  addedAt : UInt64
  claimed : Bool
  claimedAmount : Option Amount
  claimedAt : Option UInt64
  createdPosition : Position
  claimPosition : Option Position
deriving DecidableEq

inductive GrantStatus where
  | active
  | revoked
deriving DecidableEq, Repr

namespace GrantStatus

def all : List GrantStatus :=
  [active, revoked]

def name : GrantStatus → String
  | active => "active"
  | revoked => "revoked"

def ofName? (s : String) : Option GrantStatus :=
  all.find? (·.name == s)

@[simp] theorem ofName?_name (s : GrantStatus) : ofName? s.name = some s := by
  cases s <;> rfl

end GrantStatus

/-- A vesting grant, with what has been claimed of it. -/
structure Grant where
  contract : ContractId
  grantId : UInt64
  beneficiary : String
  amount : Amount
  startTime : UInt64
  cliffSeconds : UInt64
  durationSeconds : UInt64
  grantedAt : UInt64
  totalClaimed : Amount
  claimCount : UInt32
  status : GrantStatus
  revokedAt : Option UInt64
  /-- What went back when the grant was revoked. -/
  unvestedAmount : Option Amount
  createdPosition : Position
  lastPosition : Position
deriving DecidableEq

def Grant.remaining (r : Grant) : Amount :=
  r.amount.saturatingSub r.totalClaimed

/-- An entity that is frozen because an event of it was refused. -/
structure Quarantine where
  contract : ContractId
  entity : Entity
  /-- Where the refused event stands. -/
  position : Position
  reason : String
deriving DecidableEq

/-- All rows of a contract, each table in the order of its keys. -/
structure Snapshot where
  trades : List Trade
  proposals : List Proposal
  rewards : List Reward
  grants : List Grant
  quarantined : List Quarantine
deriving DecidableEq

namespace Snapshot

def empty : Snapshot :=
  ⟨[], [], [], [], []⟩

def isEmpty (s : Snapshot) : Bool :=
  s.trades.isEmpty && s.proposals.isEmpty && s.rewards.isEmpty && s.grants.isEmpty &&
    s.quarantined.isEmpty

end Snapshot

end EventIndex
