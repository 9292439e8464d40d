import EventIndex.Proofs.Position.Order
import EventIndex.Proofs.Projection.Derivation
import Mathlib.Data.List.Induction

/-! # Positions in rows

The positions in the rows and in the quarantine are those of events that have been applied, and no
others. -/

namespace EventIndex

namespace EntityKind

def rowPositions : (k : EntityKind) → k.Row → List Position
  | .trade, r => [Trade.position r]
  | .proposal, r => [Proposal.createdPosition r, Proposal.lastPosition r]
  | .reward, r => Reward.createdPosition r :: (Reward.claimPosition r).toList
  | .grant, r => [Grant.createdPosition r, Grant.lastPosition r]

end EntityKind

/-! ## Writes -/

/-- A step at the position `p` writes no positions but `p` and those of the row before it. -/
def Stamps (k : EntityKind) (p : Position) (current : Option k.Row) (step : Step k.Row) : Prop :=
  ∀ row, step = .ok (.write row) → ∀ q ∈ k.rowPositions row,
    q = p ∨ ∃ old, current = some old ∧ q ∈ k.rowPositions old

theorem Trade.stamps_execute (current : Option Trade) (contract : ContractId) (e : TradeExecuted)
    (p : Position) : Stamps .trade p current (execute current contract e p) := by
  intro row h q hq
  unfold execute at h
  dsimp only at h
  split at h
  · cases h
    exact .inl (by simpa [EntityKind.rowPositions, ofPayload] using hq)
  · split at h
    · cases h
    · split at h <;> cases h

namespace Proposal

theorem stamps_create (current : Option Proposal) (contract : ContractId) (e : ProposalCreated)
    (p : Position) : Stamps .proposal p current (create current contract e p) := by
  intro row h q hq
  unfold create at h
  split at h
  · cases h
    exact .inl (by simpa [EntityKind.rowPositions, ofPayload] using hq)
  · split at h
    · cases h
    · split at h <;> cases h

theorem positions_of_after {r row : Proposal} {action : ProposalAction} {p : Position}
    (h : r.after action p = .ok row) :
    row.createdPosition = r.createdPosition ∧ row.lastPosition = p := by
  cases action with
  | approve =>
    simp only [after, approve?] at h
    split at h <;> cases h
    exact ⟨rfl, rfl⟩
  | _ => cases h; exact ⟨rfl, rfl⟩

theorem stamps_act (current : Option Proposal) (id : UInt64) (action : ProposalAction)
    (p : Position) : Stamps .proposal p current (act current id action p) := by
  intro row h q hq
  unfold act at h
  split at h
  · cases h
  · rename_i old
    split at h
    · split at h <;> cases h
    · split at h
      · cases h
      · split at h
        · cases h
        · split at h
          · rename_i next hnext
            cases h
            obtain ⟨hcreated, hlast⟩ := positions_of_after hnext
            rcases List.mem_pair.mp hq with rfl | rfl
            · exact .inr ⟨old, rfl, List.mem_pair.mpr (.inl hcreated)⟩
            · exact .inl hlast
          · cases h

end Proposal

namespace Reward

theorem stamps_add (current : Option Reward) (contract : ContractId) (e : RewardAdded)
    (p : Position) : Stamps .reward p current (add current contract e p) := by
  intro row h q hq
  unfold add at h
  split at h
  · cases h
    exact .inl (by simpa [EntityKind.rowPositions, ofPayload] using hq)
  · split at h
    · cases h
    · split at h <;> cases h

theorem stamps_claim (current : Option Reward) (e : RewardClaimed) (p : Position) :
    Stamps .reward p current (claim current e p) := by
  intro row h q hq
  unfold claim at h
  split at h
  · cases h
  · rename_i old
    split at h
    · split at h <;> cases h
    · split at h
      · cases h
      · cases h
        rcases List.mem_cons.mp hq with rfl | hq
        · exact .inr ⟨old, rfl, List.mem_cons_self⟩
        · exact .inl (by simpa using hq)

end Reward

namespace Grant

theorem stamps_create (current : Option Grant) (contract : ContractId) (e : GrantCreated)
    (p : Position) : Stamps .grant p current (create current contract e p) := by
  intro row h q hq
  unfold create at h
  split at h
  · cases h
    exact .inl (by simpa [EntityKind.rowPositions, ofPayload] using hq)
  · split at h
    · cases h
    · split at h <;> cases h

theorem stamps_change (current : Option Grant) (id : UInt64) (topic : Topic) (p : Position)
    (applied : Grant → Bool) {next : Grant → Except Conflict Grant}
    (hnext : ∀ old row, next old = .ok row →
      row.createdPosition = old.createdPosition ∧ row.lastPosition = p) :
    Stamps .grant p current (change current id topic p applied next) := by
  intro row h q hq
  unfold change at h
  split at h
  · cases h
  · rename_i old
    split at h
    · split at h <;> cases h
    · split at h
      · cases h
      · split at h
        · cases h
        · split at h
          · rename_i hrow
            cases h
            obtain ⟨hcreated, hlast⟩ := hnext old _ hrow
            rcases List.mem_pair.mp hq with rfl | rfl
            · exact .inr ⟨old, rfl, List.mem_pair.mpr (.inl hcreated)⟩
            · exact .inl hlast
          · cases h

theorem positions_of_afterClaim {r row : Grant} {e : GrantClaimed} {p : Position}
    (h : r.afterClaim e p = .ok row) :
    row.createdPosition = r.createdPosition ∧ row.lastPosition = p := by
  unfold afterClaim at h
  split at h
  · cases h
  · split at h
    · cases h
    · split at h <;> cases h
      exact ⟨rfl, rfl⟩

theorem stamps_claim (current : Option Grant) (e : GrantClaimed) (p : Position) :
    Stamps .grant p current (claim current e p) :=
  stamps_change current e.grantId .claim p _ fun _ _ => positions_of_afterClaim

theorem stamps_revoke (current : Option Grant) (e : GrantRevoked) (p : Position) :
    Stamps .grant p current (revoke current e p) := by
  apply stamps_change
  intro old row h
  cases h
  exact ⟨rfl, rfl⟩

end Grant

theorem Payload.stamps_step (contract : ContractId) (p : Position) (e : Payload)
    (current : Option e.kind.Row) : Stamps e.kind p current (e.step contract p current) := by
  cases e with
  | tradeExecuted e => exact Trade.stamps_execute current contract e p
  | proposalCreated e => exact Proposal.stamps_create current contract e p
  | proposalApproved e => exact Proposal.stamps_act current e.proposalId .approve p
  | proposalRejected e => exact Proposal.stamps_act current e.proposalId (.reject e.rejectedAt) p
  | proposalCancelled e => exact Proposal.stamps_act current e.proposalId (.cancel e.cancelledAt) p
  | proposalExecuted e => exact Proposal.stamps_act current e.proposalId (.execute e.executedAt) p
  | rewardAdded e => exact Reward.stamps_add current contract e p
  | rewardClaimed e => exact Reward.stamps_claim current e p
  | grant e => exact Grant.stamps_create current contract e p
  | claim e => exact Grant.stamps_claim current e p
  | revoke e => exact Grant.stamps_revoke current e p

/-! ## Positions in the tables -/

namespace Tables

/-- `S` holds of all positions in the tables. -/
structure Within (t : Tables) (S : Position → Prop) : Prop where
  row : ∀ (k : EntityKind) (id : UInt64) (row : k.Row), t.row? k id = some row →
    ∀ q ∈ k.rowPositions row, S q
  quarantine : ∀ (e : Entity) (q : Quarantine), t.quarantine? e = some q → S q.position

namespace Within

variable {t : Tables} {S S' : Position → Prop} {p : Position}

theorem mono (h : t.Within S) (hS : ∀ q, S q → S' q) : t.Within S' where
  row k id row hrow q hq := hS q (h.row k id row hrow q hq)
  quarantine e q hq := hS q.position (h.quarantine e q hq)

theorem empty (S : Position → Prop) : (∅ : Tables).Within S :=
  ⟨by simp, by simp⟩

theorem insert (h : t.Within S) {k : EntityKind} {row : k.Row}
    (hrow : ∀ q ∈ k.rowPositions row, S q) : (t.insert k row).Within S where
  row l id other hother := by
    by_cases hl : k = l
    · subst hl
      rw [row?_insert] at hother
      split at hother
      · cases hother
        exact hrow
      · exact h.row k id other hother
    · rw [row?_insert_of_ne t hl] at hother
      exact h.row l id other hother
  quarantine e q hq := h.quarantine e q (by simpa using hq)

theorem freeze (h : t.Within S) {q : Quarantine} (hq : S q.position) : (t.freeze q).Within S where
  row k id row hrow := h.row k id row (by simpa using hrow)
  quarantine e r hr := by
    rw [quarantine?_freeze] at hr
    split at hr
    · cases hr
      exact hq
    · exact h.quarantine e r hr

theorem apply (h : t.Within S) (hp : S p) (contract : ContractId) (d : Decoded) :
    (t.apply contract p d).2.Within S := by
  cases d with
  | unrecognized topic raw => exact h
  | recognized e =>
    simp only [Tables.apply]
    split
    · exact h
    · split
      · exact h.freeze hp
      · exact h
      · rename_i row hstep
        refine h.insert fun q hq => ?_
        rcases e.stamps_step contract p _ row hstep q hq with rfl | ⟨old, hold, hq⟩
        · exact hp
        · exact h.row e.kind e.id old hold q hq

theorem absorb (h : t.Within S) {e : RawEvent} (he : S e.position) : (t.absorb e).Within S := by
  unfold Tables.absorb
  split
  · exact h
  · exact h.apply he _ _

end Within

theorem within_derive (es : List RawEvent) :
    (derive es).Within fun q => ∃ e ∈ es, e.position = q := by
  induction es using List.reverseRecOn with
  | nil => exact .empty _
  | append_singleton es e ih =>
    rw [derive_append_singleton]
    refine (ih.mono ?_).absorb ⟨e, by simp, rfl⟩
    rintro q ⟨f, hf, rfl⟩
    exact ⟨f, by simp [hf], rfl⟩

theorem within_derive_lt {es : List RawEvent} {p : Position} (h : ∀ e ∈ es, e.position < p) :
    (derive es).Within (· < p) := by
  refine (within_derive es).mono ?_
  rintro q ⟨e, he, rfl⟩
  exact h e he

end Tables

end EventIndex
