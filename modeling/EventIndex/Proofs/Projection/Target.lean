import EventIndex.Projection.Apply

/-! # Transitions keep to their entity

An event is refused in the name of the entity that it is about, and the row that it writes has the
number of this entity. -/

namespace EventIndex

/-- The step refuses in the name of the entity, and writes a row with the number of the entity
if the row before it has this number. -/
def KeepsTo (k : EntityKind) (id : UInt64) (current : Option k.Row) : Step k.Row → Prop
  | .error r => r.entity = ⟨k, id⟩
  | .ok .unchanged => True
  | .ok (.write row) => (∀ old, current = some old → k.rowId old = id) → k.rowId row = id

theorem Trade.keepsTo_execute (current : Option Trade) (contract : ContractId) (e : TradeExecuted)
    (p : Position) : KeepsTo .trade e.tradeId current (execute current contract e p) := by
  unfold execute
  dsimp only
  split
  · exact fun _ => rfl
  · split
    · rfl
    · split <;> trivial

namespace Proposal

theorem keepsTo_create (current : Option Proposal) (contract : ContractId) (e : ProposalCreated)
    (p : Position) : KeepsTo .proposal e.proposalId current (create current contract e p) := by
  unfold create
  split
  · exact fun _ => rfl
  · split
    · rfl
    · split <;> trivial

theorem proposalId_of_after {r row : Proposal} {action : ProposalAction} {p : Position}
    (h : r.after action p = .ok row) : row.proposalId = r.proposalId := by
  cases action with
  | approve =>
    simp only [after, approve?] at h
    split at h <;> cases h
    rfl
  | _ => cases h; rfl

theorem keepsTo_act (current : Option Proposal) (id : UInt64) (action : ProposalAction)
    (p : Position) : KeepsTo .proposal id current (act current id action p) := by
  unfold act
  split
  · rfl
  · rename_i old
    split
    · split <;> trivial
    · split
      · rfl
      · split
        · rfl
        · split
          · rename_i row h
            exact fun hid => (proposalId_of_after h).trans (hid old rfl)
          · rfl

end Proposal

namespace Reward

theorem keepsTo_add (current : Option Reward) (contract : ContractId) (e : RewardAdded)
    (p : Position) : KeepsTo .reward e.rewardId current (add current contract e p) := by
  unfold add
  split
  · exact fun _ => rfl
  · split
    · rfl
    · split <;> trivial

theorem keepsTo_claim (current : Option Reward) (e : RewardClaimed) (p : Position) :
    KeepsTo .reward e.rewardId current (claim current e p) := by
  unfold claim
  split
  · rfl
  · rename_i old
    split
    · split <;> trivial
    · split
      · rfl
      · exact fun hid => hid old rfl

end Reward

namespace Grant

theorem keepsTo_create (current : Option Grant) (contract : ContractId) (e : GrantCreated)
    (p : Position) : KeepsTo .grant e.grantId current (create current contract e p) := by
  unfold create
  split
  · exact fun _ => rfl
  · split
    · rfl
    · split <;> trivial

theorem keepsTo_change (current : Option Grant) (id : UInt64) (topic : Topic) (p : Position)
    (applied : Grant → Bool) {next : Grant → Except Conflict Grant}
    (hnext : ∀ old row, next old = .ok row → row.grantId = old.grantId) :
    KeepsTo .grant id current (change current id topic p applied next) := by
  unfold change
  split
  · rfl
  · rename_i old
    split
    · split <;> trivial
    · split
      · rfl
      · split
        · rfl
        · split
          · rename_i row h
            exact fun hid => (hnext old row h).trans (hid old rfl)
          · rfl

theorem grantId_of_afterClaim {r row : Grant} {e : GrantClaimed} {p : Position}
    (h : r.afterClaim e p = .ok row) : row.grantId = r.grantId := by
  unfold afterClaim at h
  split at h
  · cases h
  · split at h
    · cases h
    · split at h <;> cases h
      rfl

theorem keepsTo_claim (current : Option Grant) (e : GrantClaimed) (p : Position) :
    KeepsTo .grant e.grantId current (claim current e p) :=
  keepsTo_change current e.grantId .claim p _ fun _ _ => grantId_of_afterClaim

theorem keepsTo_revoke (current : Option Grant) (e : GrantRevoked) (p : Position) :
    KeepsTo .grant e.grantId current (revoke current e p) := by
  apply keepsTo_change
  intro old row h
  cases h
  rfl

end Grant

theorem Payload.keepsTo_step (contract : ContractId) (p : Position) (e : Payload)
    (current : Option e.kind.Row) : KeepsTo e.kind e.id current (e.step contract p current) := by
  cases e with
  | tradeExecuted e => exact Trade.keepsTo_execute current contract e p
  | proposalCreated e => exact Proposal.keepsTo_create current contract e p
  | proposalApproved e => exact Proposal.keepsTo_act current e.proposalId .approve p
  | proposalRejected e => exact Proposal.keepsTo_act current e.proposalId (.reject e.rejectedAt) p
  | proposalCancelled e => exact Proposal.keepsTo_act current e.proposalId (.cancel e.cancelledAt) p
  | proposalExecuted e => exact Proposal.keepsTo_act current e.proposalId (.execute e.executedAt) p
  | rewardAdded e => exact Reward.keepsTo_add current contract e p
  | rewardClaimed e => exact Reward.keepsTo_claim current e p
  | grant e => exact Grant.keepsTo_create current contract e p
  | claim e => exact Grant.keepsTo_claim current e p
  | revoke e => exact Grant.keepsTo_revoke current e p

namespace Payload

variable {contract : ContractId} {p : Position} {e : Payload} {current : Option e.kind.Row}

theorem entity_of_step_error {r : Refusal} (h : e.step contract p current = .error r) :
    r.entity = e.target := by
  have hkeeps := e.keepsTo_step contract p current
  rwa [h] at hkeeps

theorem rowId_of_step_write {row : e.kind.Row} (h : e.step contract p current = .ok (.write row))
    (hid : ∀ old, current = some old → e.kind.rowId old = e.id) : e.kind.rowId row = e.id := by
  have hkeeps := e.keepsTo_step contract p current
  rw [h] at hkeeps
  exact hkeeps hid

end Payload

end EventIndex
