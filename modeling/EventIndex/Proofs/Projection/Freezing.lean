import EventIndex.Proofs.Projection.Derivation

/-! # What freezes an entity

An event of an entity that is not frozen is refused for what it contradicts or for the state of the
entity, and then the entity is frozen. An event of a frozen entity freezes nothing. -/

namespace EventIndex

/-- If the step is refused, this is not because of an earlier refusal. -/
def RefusesAnew {Row : Type} (s : Step Row) : Prop :=
  ∀ r, s = .error r → r.isQuarantined = false

namespace RefusesAnew

variable {Row : Type} (e : Entity)

@[grind ←] theorem ok (t : Transition Row) : RefusesAnew (.ok t) := by
  rintro r ⟨⟩

@[grind ←] theorem integrity (c : Conflict) :
    RefusesAnew (.error (.integrity e c) : Step Row) := by
  rintro r ⟨⟩
  rfl

@[grind ←] theorem invalidTransition (s : Standing) (topic : Topic) :
    RefusesAnew (.error (.invalidTransition e s topic) : Step Row) := by
  rintro r ⟨⟩
  rfl

end RefusesAnew

section Steps

variable (contract : ContractId) (p : Position)

theorem Trade.refusesAnew_execute (current : Option Trade) (e : TradeExecuted) :
    RefusesAnew (execute current contract e p) := by
  cases current <;> grind [execute]

theorem Proposal.refusesAnew_create (current : Option Proposal) (e : ProposalCreated) :
    RefusesAnew (create current contract e p) := by
  cases current <;> grind [create]

theorem Proposal.refusesAnew_act (current : Option Proposal) (id : UInt64)
    (action : ProposalAction) : RefusesAnew (act current id action p) := by
  cases current <;> grind [act]

theorem Reward.refusesAnew_add (current : Option Reward) (e : RewardAdded) :
    RefusesAnew (add current contract e p) := by
  cases current <;> grind [add]

theorem Reward.refusesAnew_claim (current : Option Reward) (e : RewardClaimed) :
    RefusesAnew (claim current e p) := by
  cases current <;> grind [claim]

theorem Grant.refusesAnew_create (current : Option Grant) (e : GrantCreated) :
    RefusesAnew (create current contract e p) := by
  cases current <;> grind [create]

theorem Grant.refusesAnew_change (current : Option Grant) (id : UInt64) (topic : Topic)
    (applied : Grant → Bool) (next : Grant → Except Conflict Grant) :
    RefusesAnew (change current id topic p applied next) := by
  cases current <;> grind [change]

theorem Grant.refusesAnew_revoke (current : Option Grant) (e : GrantRevoked) :
    RefusesAnew (revoke current e p) := by
  apply refusesAnew_change

theorem Payload.refusesAnew_step (e : Payload) (current : Option e.kind.Row) :
    RefusesAnew (e.step contract p current) := by
  cases e with
  | tradeExecuted e => exact Trade.refusesAnew_execute contract p current e
  | proposalCreated e => exact Proposal.refusesAnew_create contract p current e
  | proposalApproved e | proposalRejected e | proposalCancelled e | proposalExecuted e =>
    exact Proposal.refusesAnew_act p current e.proposalId _
  | rewardAdded e => exact Reward.refusesAnew_add contract p current e
  | rewardClaimed e => exact Reward.refusesAnew_claim p current e
  | grant e => exact Grant.refusesAnew_create contract p current e
  | claim e => exact Grant.refusesAnew_change p current e.grantId _ _ _
  | revoke e => exact Grant.refusesAnew_revoke p current e

end Steps

namespace Tables

variable {contract : ContractId} {p : Position} {t : Tables} {d : Decoded}

/-- The tables have as many frozen entities as before, unless an event is refused anew. -/
theorem size_quarantined_apply :
    (t.apply contract p d).2.quarantined.size = t.quarantined.size +
      match (t.apply contract p d).1 with
      | .ok _ => 0
      | .error r => if r.isQuarantined then 0 else 1 := by
  cases d with
  | unrecognized topic raw => rfl
  | recognized e =>
    cases hq : t.quarantine? e.target with
    | some q => simp [apply, hq, Refusal.isQuarantined, Refusal.quarantined]
    | none =>
      cases hs : e.step contract p (t.row? e.kind e.id) with
      | error r =>
        have hfree : e.target ∉ t.quarantined := by
          rw [Std.ExtTreeMap.mem_iff_isSome_getElem?, Option.not_isSome_iff_eq_none]
          exact hq
        rw [apply_error hq hs]
        simp [freeze, Std.ExtTreeMap.size_insert, hfree, e.refusesAnew_step contract p _ r hs]
      | ok transition =>
        cases transition with
        | unchanged => simp [apply, hq, hs]
        | write row =>
          rw [apply_write hq hs]
          cases e <;> rfl

end Tables

end EventIndex
