import EventIndex.Payload.Basic
import EventIndex.Projection.Refusal

/-!
# Transitions

An event takes the row of its entity to a new row, leaves it as it is because it is already
reflected there, or is refused.
-/

namespace EventIndex

inductive Transition (Row : Type) where
  | unchanged
  | write (row : Row)
deriving DecidableEq

/-- The transition that an event makes, unless it is refused. -/
abbrev Step (Row : Type) := Except Refusal (Transition Row)

namespace Transition

variable {Row : Type}

/-- The row that is to be written. -/
def row? : Transition Row → Option Row
  | unchanged => none
  | write row => some row

def after (current : Option Row) : Transition Row → Option Row
  | unchanged => current
  | write row => some row

end Transition

namespace Trade

def ofPayload (contract : ContractId) (e : TradeExecuted) (p : Position) : Trade where
  contract := contract
  tradeId := e.tradeId
  maker := e.maker
  taker := e.taker
  baseAsset := e.baseAsset
  quoteAsset := e.quoteAsset
  baseAmount := e.baseAmount
  quoteAmount := e.quoteAmount
  executedAt := e.executedAt
  position := p

/-- Records a trade; the same trade may come again at its position. -/
def execute (current : Option Trade) (contract : ContractId) (e : TradeExecuted) (p : Position) :
    Step Trade :=
  let row := ofPayload contract e p
  match current with
  | none => .ok (.write row)
  | some old =>
    if old.position ≠ p then .error (.integrity (.trade e.tradeId) (.recordedAt old.position))
    else if old = row then .ok .unchanged
    else .error (.integrity (.trade e.tradeId) .otherContent)

end Trade

namespace Proposal

def ofPayload (contract : ContractId) (e : ProposalCreated) (p : Position) : Proposal where
  contract := contract
  proposalId := e.proposalId
  proposer := e.proposer
  title := e.title
  approvalThreshold := e.approvalThreshold
  currentApprovals := 0
  status := .pending
  createdAt := e.createdAt
  closedAt := none
  createdPosition := p
  lastPosition := p

/-- Whether the row was made by this event, by what it keeps of it. -/
def isOf (r : Proposal) (e : ProposalCreated) : Bool :=
  r.proposer = e.proposer && r.title = e.title && r.approvalThreshold = e.approvalThreshold &&
    r.createdAt = e.createdAt

def create (current : Option Proposal) (contract : ContractId) (e : ProposalCreated)
    (p : Position) : Step Proposal :=
  match current with
  | none => .ok (.write (ofPayload contract e p))
  | some old =>
    if old.createdPosition ≠ p then
      .error (.integrity (.proposal e.proposalId) (.createdAt old.createdPosition))
    else if old.isOf e then .ok .unchanged
    else .error (.integrity (.proposal e.proposalId) .otherContent)

end Proposal

/-- What happens to a proposal after its creation, and when. -/
inductive ProposalAction where
  | approve
  | reject (time : UInt64)
  | cancel (time : UInt64)
  | execute (time : UInt64)
deriving DecidableEq, Repr

namespace ProposalAction

def topic : ProposalAction → Topic
  | approve => .proposalApproved
  | reject _ => .proposalRejected
  | cancel _ => .proposalCancelled
  | execute _ => .proposalExecuted

/-- Whether the row is one that the action leaves behind. A row does not keep who approved, so any
approval is taken for any other. -/
def isReflectedIn (r : Proposal) : ProposalAction → Bool
  | approve => r.status = .pending && 0 < r.currentApprovals
  | reject time => r.status = .rejected && r.closedAt = some time
  | cancel time => r.status = .cancelled && r.closedAt = some time
  | execute time => r.status = .executed && r.closedAt = some time

end ProposalAction

namespace Proposal

def close (r : Proposal) (status : ProposalStatus) (time : UInt64) (p : Position) : Proposal :=
  { r with status := status, closedAt := some time, lastPosition := p }

/-- One more approval, if the count does not overflow. -/
def approve? (r : Proposal) (p : Position) : Option Proposal :=
  if r.currentApprovals.toNat + 1 < UInt32.size then
    some { r with currentApprovals := r.currentApprovals + 1, lastPosition := p }
  else none

/-- The row of a pending proposal after an action. A proposal may be executed without its quorum. -/
def after (r : Proposal) (action : ProposalAction) (p : Position) : Except Conflict Proposal :=
  match action with
  | .approve => (r.approve? p).elim (.error .tooManyApprovals) .ok
  | .reject time => .ok (r.close .rejected time p)
  | .cancel time => .ok (r.close .cancelled time p)
  | .execute time => .ok (r.close .executed time p)

/-- Approves or closes a proposal. A closed proposal refuses everything. -/
def act (current : Option Proposal) (id : UInt64) (action : ProposalAction) (p : Position) :
    Step Proposal :=
  match current with
  | none => .error (.invalidTransition (.proposal id) .absent action.topic)
  | some old =>
    if old.lastPosition = p then
      if action.isReflectedIn old then .ok .unchanged
      else .error (.integrity (.proposal id) (.otherEvent action.topic p))
    else if p < old.lastPosition then
      .error (.integrity (.proposal id) (.precedes p old.lastPosition))
    else if old.status.isTerminal then
      .error (.invalidTransition (.proposal id) (.closed old.status) action.topic)
    else
      match old.after action p with
      | .ok row => .ok (.write row)
      | .error conflict => .error (.integrity (.proposal id) conflict)

end Proposal

namespace Reward

def ofPayload (contract : ContractId) (e : RewardAdded) (p : Position) : Reward where
  contract := contract
  rewardId := e.rewardId
  recipient := e.recipient
  amount := e.amount
  reason := e.reason
  addedAt := e.addedAt
  claimed := false
  claimedAmount := none
  claimedAt := none
  createdPosition := p
  claimPosition := none

def isOf (r : Reward) (e : RewardAdded) : Bool :=
  r.recipient = e.recipient && r.amount = e.amount && r.reason = e.reason && r.addedAt = e.addedAt

def add (current : Option Reward) (contract : ContractId) (e : RewardAdded) (p : Position) :
    Step Reward :=
  match current with
  | none => .ok (.write (ofPayload contract e p))
  | some old =>
    if old.createdPosition ≠ p then
      .error (.integrity (.reward e.rewardId) (.addedAt old.createdPosition))
    else if old.isOf e then .ok .unchanged
    else .error (.integrity (.reward e.rewardId) .otherContent)

def hasClaim (r : Reward) (e : RewardClaimed) : Bool :=
  r.claimedAmount = some e.amount && r.claimedAt = some e.claimedAt && r.recipient = e.recipient

/-- What is wrong with a claim of a reward that has not been claimed. -/
def claimFlaw? (r : Reward) (e : RewardClaimed) (p : Position) : Option Conflict :=
  if p ≤ r.createdPosition then some (.claimNotAfter p r.createdPosition)
  else if r.recipient ≠ e.recipient then some (.notOwed e.recipient r.recipient)
  else if r.amount ≠ e.amount then some (.otherAmount e.amount r.amount)
  else none

/-- Claims a reward as a whole, at most once. -/
def claim (current : Option Reward) (e : RewardClaimed) (p : Position) : Step Reward :=
  match current with
  | none => .error (.invalidTransition (.reward e.rewardId) .absent .rewardClaimed)
  | some old =>
    if old.claimed then
      if old.hasClaim e then .ok .unchanged
      else .error (.integrity (.reward e.rewardId) (.claimedOtherwise old.claimPosition))
    else
      match old.claimFlaw? e p with
      | some conflict => .error (.integrity (.reward e.rewardId) conflict)
      | none =>
        .ok (.write { old with
          claimed := true
          claimedAmount := some e.amount
          claimedAt := some e.claimedAt
          claimPosition := some p })

end Reward

namespace Grant

def ofPayload (contract : ContractId) (e : GrantCreated) (p : Position) : Grant where
  contract := contract
  grantId := e.grantId
  beneficiary := e.beneficiary
  amount := e.amount
  startTime := e.startTime
  cliffSeconds := e.cliffSeconds
  durationSeconds := e.durationSeconds
  grantedAt := e.grantedAt
  totalClaimed := 0
  claimCount := 0
  status := .active
  revokedAt := none
  unvestedAmount := none
  createdPosition := p
  lastPosition := p

def isOf (r : Grant) (e : GrantCreated) : Bool :=
  r.beneficiary = e.beneficiary && r.amount = e.amount && r.startTime = e.startTime &&
    r.cliffSeconds = e.cliffSeconds && r.durationSeconds = e.durationSeconds &&
    r.grantedAt = e.grantedAt

def create (current : Option Grant) (contract : ContractId) (e : GrantCreated) (p : Position) :
    Step Grant :=
  match current with
  | none => .ok (.write (ofPayload contract e p))
  | some old =>
    if old.createdPosition ≠ p then
      .error (.integrity (.grant e.grantId) (.grantedAt old.createdPosition))
    else if old.isOf e then .ok .unchanged
    else .error (.integrity (.grant e.grantId) .otherContent)

/-- A change of a grant that is still active, by an event that may have been applied before. -/
def change (current : Option Grant) (id : UInt64) (topic : Topic) (p : Position)
    (applied : Grant → Bool) (next : Grant → Except Conflict Grant) : Step Grant :=
  match current with
  | none => .error (.invalidTransition (.grant id) .absent topic)
  | some old =>
    if old.lastPosition = p then
      if applied old then .ok .unchanged
      else .error (.integrity (.grant id) (.otherEvent topic p))
    else if p < old.lastPosition then
      .error (.integrity (.grant id) (.precedes p old.lastPosition))
    else if old.status = .revoked then
      .error (.invalidTransition (.grant id) (.ended old.status) topic)
    else
      match next old with
      | .ok row => .ok (.write row)
      | .error conflict => .error (.integrity (.grant id) conflict)

/-- Whether the row is one that the claim leaves behind. A row keeps totals only, so a claim is
known by its beneficiary and its size. -/
def reflectsClaim (r : Grant) (e : GrantClaimed) : Bool :=
  r.status = .active && r.beneficiary = e.beneficiary && 0 < r.claimCount &&
    e.amount.val ≤ r.totalClaimed.val

/-- The total with this claim, if it is within the grant. -/
def totalWith? (r : Grant) (e : GrantClaimed) : Option Amount :=
  (r.totalClaimed.checkedAdd e.amount).filter (·.val ≤ r.amount.val)

def afterClaim (r : Grant) (e : GrantClaimed) (p : Position) : Except Conflict Grant :=
  if r.beneficiary ≠ e.beneficiary then .error (.notGranted e.beneficiary r.beneficiary)
  else
    match r.totalWith? e with
    | none => .error (.overClaim e.amount r.remaining)
    | some total =>
      if r.claimCount.toNat + 1 < UInt32.size then
        .ok { r with totalClaimed := total, claimCount := r.claimCount + 1, lastPosition := p }
      else .error .tooManyClaims

def claim (current : Option Grant) (e : GrantClaimed) (p : Position) : Step Grant :=
  change current e.grantId .claim p (·.reflectsClaim e) (·.afterClaim e p)

def reflectsRevocation (r : Grant) (e : GrantRevoked) : Bool :=
  r.status = .revoked && r.revokedAt = some e.revokedAt && r.unvestedAmount = some e.unvestedAmount

def revoke (current : Option Grant) (e : GrantRevoked) (p : Position) : Step Grant :=
  change current e.grantId .revoke p (·.reflectsRevocation e) fun old =>
    .ok { old with
      status := .revoked
      revokedAt := some e.revokedAt
      unvestedAmount := some e.unvestedAmount
      lastPosition := p }

end Grant

end EventIndex
