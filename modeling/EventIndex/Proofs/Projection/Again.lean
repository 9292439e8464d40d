import EventIndex.Proofs.Projection.GrantConservation
import EventIndex.Proofs.Projection.ProposalLifecycle
import EventIndex.Proofs.Projection.RewardClaim

/-! # Events that are applied again

An event that is applied once more at its position is found in the row that it left behind, whatever
the position is. Most events are known there by their content or by what they closed; a claim of a
grant is known by the total, which is why no total may be negative. -/

namespace EventIndex

/-! ## Steps that are made again -/

/-- The step finds its event in the row that it leaves behind. -/
def Absorbs {Row : Type} (step : Option Row → Step Row) (current : Option Row) : Prop :=
  ∀ t, step current = .ok t → step (t.after current) = .ok .unchanged

/-- A step that changes nothing does so again, so only what it writes matters. -/
theorem Absorbs.of_write {Row : Type} {step : Option Row → Step Row} {current : Option Row}
    (h : ∀ row, step current = .ok (.write row) → step (some row) = .ok .unchanged) :
    Absorbs step current := by
  intro t ht
  cases t with
  | unchanged => exact ht
  | write row => exact h row ht

variable {p : Position}

/-- An event that makes a row is known by the position of the row and by what the row keeps of it.
-/
theorem Absorbs.of_creation {Row : Type} {step : Option Row → Step Row} {created : Row}
    {place : Row → Position} {same : Row → Prop} [DecidablePred same] {moved : Row → Refusal}
    {other : Refusal} (hnone : step none = .ok (.write created))
    (hsome : ∀ old, step (some old) =
      if place old ≠ p then .error (moved old)
      else if same old then .ok .unchanged
      else .error other)
    (hplace : place created = p) (hsame : same created) (current : Option Row) :
    Absorbs step current := by
  refine .of_write fun row h => ?_
  cases current with
  | none =>
    obtain rfl : created = row := by simpa [hnone] using h
    simp [hsome, hplace, hsame]
  | some old =>
    rw [hsome] at h
    split at h
    · cases h
    · split at h <;> cases h

theorem Trade.absorbs_execute (current : Option Trade) (contract : ContractId) (e : TradeExecuted) :
    Absorbs (execute · contract e p) current :=
  .of_creation rfl (fun _ => rfl) (by rfl) (by rfl) current

namespace Proposal

theorem absorbs_create (current : Option Proposal) (contract : ContractId) (e : ProposalCreated) :
    Absorbs (create · contract e p) current :=
  .of_creation rfl (fun _ => rfl) rfl (by simp [ofPayload, isOf]) current

theorem isReflectedIn_of_after {old row : Proposal} {action : ProposalAction}
    (hpending : old.status = .pending) (h : old.after action p = .ok row) :
    row.lastPosition = p ∧ action.isReflectedIn row := by
  cases action with
  | approve =>
    simp only [after, approve?] at h
    split at h
    · rename_i hcount
      cases h
      have hsucc := toNat_add_one_of_lt hcount
      have hpos : 0 < old.currentApprovals + 1 := by
        rw [UInt32.lt_iff_toNat_lt, hsucc]
        exact Nat.succ_pos _
      exact ⟨rfl, by simp [ProposalAction.isReflectedIn, hpending, hpos]⟩
    · cases h
  | reject time | cancel time | execute time =>
    cases h
    exact ⟨rfl, by simp [ProposalAction.isReflectedIn, close]⟩

theorem absorbs_act (current : Option Proposal) (id : UInt64) (action : ProposalAction) :
    Absorbs (act · id action p) current := by
  refine .of_write fun row h => ?_
  obtain ⟨old, -, ⟨-, -, ⟨⟩⟩ | ⟨-, hpending, _, hafter, ⟨⟩⟩⟩ := act_cases h
  obtain ⟨hposition, hreflected⟩ := isReflectedIn_of_after hpending hafter
  simp [act, hposition, hreflected]

end Proposal

namespace Reward

theorem absorbs_add (current : Option Reward) (contract : ContractId) (e : RewardAdded) :
    Absorbs (add · contract e p) current :=
  .of_creation rfl (fun _ => rfl) rfl (by simp [ofPayload, isOf]) current

theorem absorbs_claim (current : Option Reward) (e : RewardClaimed) :
    Absorbs (claim · e p) current := by
  refine .of_write fun row h => ?_
  obtain ⟨old, -, ⟨-, -, ⟨⟩⟩ | ⟨-, hflaw, ⟨⟩⟩⟩ := of_claim h
  obtain ⟨-, hrecipient, -⟩ := claimFlaw?_eq_none_iff.mp hflaw
  simp [claim, withClaim, hasClaim, hrecipient]

end Reward

namespace Grant

theorem absorbs_create (current : Option Grant) (contract : ContractId) (e : GrantCreated) :
    Absorbs (create · contract e p) current :=
  .of_creation rfl (fun _ => rfl) rfl (by simp [ofPayload, isOf]) current

/-- A change that is seen in the next row is not made twice. -/
theorem absorbs_change {current : Option Grant} {id : UInt64} {topic : Topic}
    {applied : Grant → Bool} {next : Grant → Except Conflict Grant}
    (h : ∀ old row, current = some old → old.status = .active → next old = .ok row →
      row.lastPosition = p ∧ applied row) : Absorbs (change · id topic p applied next) current := by
  refine .of_write fun row hrow => ?_
  obtain ⟨old, hold, ⟨-, -, ⟨⟩⟩ | ⟨-, hactive, _, hnext, ⟨⟩⟩⟩ := change_cases hrow
  obtain ⟨hposition, happlied⟩ := h old row hold hactive hnext
  simp [change, hposition, happlied]

theorem absorbs_claim {current : Option Grant}
    (h : ∀ old, current = some old → 0 ≤ old.totalClaimed.val) (e : GrantClaimed) :
    Absorbs (claim · e p) current := by
  refine absorbs_change fun old row hold hactive hnext => ?_
  have hbeneficiary : old.beneficiary = e.beneficiary := by
    by_contra hne
    simp [afterClaim, hne] at hnext
  obtain ⟨total, htotal, -, hcount, rfl⟩ := of_afterClaim hnext
  have hsucc := toNat_add_one_of_lt hcount
  have hpos : 0 < old.claimCount + 1 := by
    rw [UInt32.lt_iff_toNat_lt, hsucc]
    exact Nat.succ_pos _
  have hle : e.amount.val ≤ total.val := by
    have hnonneg := h old hold
    omega
  exact ⟨rfl, by simp [reflectsClaim, withClaim, hactive, hbeneficiary, hpos, hle]⟩

theorem absorbs_revoke (current : Option Grant) (e : GrantRevoked) :
    Absorbs (revoke · e p) current := by
  refine absorbs_change fun old row _ _ hnext => ?_
  cases hnext
  exact ⟨rfl, by simp [reflectsRevocation]⟩

end Grant

/-! ## Rows that are kept -/

/-- What has been claimed of a grant is not negative. Nothing is asked of other rows. -/
def EntityKind.NonNegative : (k : EntityKind) → k.Row → Prop
  | .grant, (g : Grant) => 0 ≤ g.totalClaimed.val
  | _, _ => True

namespace Payload

/-- An event that is applied once more at its position changes nothing. -/
theorem absorbs_step (contract : ContractId) (e : Payload) {current : Option e.kind.Row}
    (h : ∀ old, current = some old → e.kind.NonNegative old) :
    Absorbs (e.step contract p) current := by
  cases e with
  | tradeExecuted e => exact Trade.absorbs_execute current contract e
  | proposalCreated e => exact Proposal.absorbs_create current contract e
  | proposalApproved e | proposalRejected e | proposalCancelled e | proposalExecuted e =>
    exact Proposal.absorbs_act current e.proposalId _
  | rewardAdded e => exact Reward.absorbs_add current contract e
  | rewardClaimed e => exact Reward.absorbs_claim current e
  | grant e => exact Grant.absorbs_create current contract e
  | claim e => exact Grant.absorbs_claim h e
  | revoke e => exact Grant.absorbs_revoke current e

/-- Claims are positive, so that the total of a grant does not fall. -/
theorem nonNegative_of_step_write {contract : ContractId} {e : Payload} (hcheck : e.check = .ok ())
    {current : Option e.kind.Row} (h : ∀ old, current = some old → e.kind.NonNegative old)
    {row : e.kind.Row} (hs : e.step contract p current = .ok (.write row)) :
    e.kind.NonNegative row := by
  cases e with
  | grant e =>
    cases current with
    | none =>
      cases hs
      exact le_refl 0
    | some old =>
      simp only [step, Grant.create] at hs
      split at hs
      · cases hs
      · split at hs <;> cases hs
  | claim e =>
    obtain ⟨old, hold, ⟨-, -, ⟨⟩⟩ | ⟨-, -, _, hclaim, ⟨⟩⟩⟩ := Grant.change_cases hs
    obtain ⟨total, htotal, -, -, rfl⟩ := Grant.of_afterClaim hclaim
    have hamount : 0 < e.amount.val := requirePositive_eq_ok_iff.mp hcheck
    have hnonneg : 0 ≤ old.totalClaimed.val := h old hold
    change 0 ≤ total.val
    omega
  | revoke e =>
    have hchange : Grant.revoke current e p = .ok (.write row) := hs
    obtain ⟨old, hold, ⟨-, -, ⟨⟩⟩ | ⟨-, -, _, ⟨⟩, ⟨⟩⟩⟩ := Grant.change_cases hchange
    exact h old hold
  | _ => trivial

end Payload

namespace Tables

/-- Each row is under its own number, and no total of a grant is negative. -/
structure Regular (t : Tables) : Prop where
  keyed : t.Keyed
  nonNegative : ∀ (k : EntityKind) (id : UInt64) (row : k.Row), t.row? k id = some row →
    k.NonNegative row

namespace Regular

variable {t : Tables} {contract : ContractId}

theorem empty : (∅ : Tables).Regular where
  keyed k id row hrow := by simp at hrow
  nonNegative k id row hrow := by simp at hrow

theorem freeze (h : t.Regular) (q : Quarantine) : (t.freeze q).Regular where
  keyed := h.keyed.freeze q
  nonNegative k id row hrow := h.nonNegative k id row (by simpa using hrow)

theorem insert (h : t.Regular) {k : EntityKind} {row : k.Row} (hrow : k.NonNegative row) :
    (t.insert k row).Regular where
  keyed := h.keyed.insert k row
  nonNegative l id other hother := by
    by_cases hl : k = l
    · subst hl
      rw [row?_insert] at hother
      split at hother
      · exact Option.some.inj hother ▸ hrow
      · exact h.nonNegative k id other hother
    · rw [row?_insert_of_ne t hl] at hother
      exact h.nonNegative l id other hother

theorem apply (h : t.Regular) (contract : ContractId) (p : Position) {topic : Topic} {v : Json}
    {q : Position} {d : Decoded} (hdecode : decode topic v q = .ok d) :
    (t.apply contract p d).2.Regular := by
  cases d with
  | unrecognized topic raw => exact h
  | recognized e =>
    simp only [Tables.apply]
    split
    · exact h
    · split
      · exact h.freeze _
      · exact h
      · rename_i hs
        exact h.insert (Payload.nonNegative_of_step_write (check_of_decode hdecode)
          (fun old hold => h.nonNegative e.kind e.id old hold) hs)

theorem absorb (h : t.Regular) (x : RawEvent) : (t.absorb x).Regular := by
  unfold Tables.absorb
  split
  · exact h
  · rename_i hdecode
    exact h.apply x.contract x.position hdecode

end Regular

/-! ## Applying an event once more -/

/-- The answer to an event that is applied once more, after the one before: a refused event has left
its entity frozen. -/
inductive Again (t : Tables) : Except Refusal Applied → Except Refusal Applied → Prop
  | written : Again t (.ok .written) (.ok .unchanged)
  | unchanged : Again t (.ok .unchanged) (.ok .unchanged)
  | ignored : Again t (.ok .ignored) (.ok .ignored)
  | refused {r : Refusal} {q : Quarantine} (hq : t.quarantine? r.entity = some q) :
    Again t (.error r) (.error (.quarantined r.entity q.position))

section Apply

variable {t : Tables} {contract : ContractId} {p : Position} {e : Payload}

theorem apply_unchanged (hq : t.quarantine? e.target = none)
    (hs : e.step contract p (t.row? e.kind e.id) = .ok .unchanged) :
    t.apply contract p (.recognized e) = (.ok .unchanged, t) := by
  simp [apply, hq, hs]

theorem apply_frozen {q : Quarantine} (hq : t.quarantine? e.target = some q) :
    t.apply contract p (.recognized e) = (.error (.quarantined e.target q.position), t) := by
  simp [apply, hq]

end Apply

theorem Regular.apply_again {t : Tables} (h : t.Regular) (contract : ContractId) (p : Position)
    (d : Decoded) :
    let once := t.apply contract p d
    let twice := once.2.apply contract p d
    twice.2 = once.2 ∧ once.2.Again once.1 twice.1 := by
  intro once twice
  cases d with
  | unrecognized topic raw => exact ⟨rfl, .ignored⟩
  | recognized e =>
    cases hq : t.quarantine? e.target with
    | some q =>
      have honce : once = (.error (.quarantined e.target q.position), t) := apply_frozen hq
      have htwice : twice = (.error (.quarantined e.target q.position), t) := by
        simp only [twice, honce, apply_frozen hq]
      rw [htwice, honce]
      exact ⟨rfl, .refused hq⟩
    | none =>
      cases hs : e.step contract p (t.row? e.kind e.id) with
      | error r =>
        let frozen : Quarantine := ⟨contract, e.target, p, r.message⟩
        have honce : once = (.error r, t.freeze frozen) := apply_error hq hs
        have hfrozen : (t.freeze frozen).quarantine? e.target = some frozen :=
          (quarantine?_freeze t frozen e.target).trans (if_pos rfl)
        have htwice : twice = (.error (.quarantined e.target p), t.freeze frozen) := by
          simp only [twice, honce, apply_frozen hfrozen, frozen]
        rw [htwice, honce, ← Payload.entity_of_step_error hs]
        exact ⟨rfl, .refused (Payload.entity_of_step_error hs ▸ hfrozen)⟩
      | ok transition =>
        cases transition with
        | unchanged =>
          have honce : once = (.ok .unchanged, t) := apply_unchanged hq hs
          have htwice : twice = (.ok .unchanged, t) := by
            simp only [twice, honce, apply_unchanged hq hs]
          rw [htwice, honce]
          exact ⟨rfl, .unchanged⟩
        | write row =>
          have honce : once = (.ok .written, t.insert e.kind row) := apply_write hq hs
          have hid : e.kind.rowId row = e.id :=
            Payload.rowId_of_step_write hs fun old hold => h.keyed e.kind e.id old hold
          have hrow : (t.insert e.kind row).row? e.kind e.id = some row :=
            (row?_insert t e.kind row e.id).trans (if_pos hid)
          have hfree : (t.insert e.kind row).quarantine? e.target = none :=
            (quarantine?_insert t e.kind row e.target).trans hq
          -- The row that was written is met by the same event at the same position.
          have hs' : e.step contract p ((t.insert e.kind row).row? e.kind e.id) =
              .ok .unchanged := by
            rw [hrow]
            exact e.absorbs_step contract
              (fun old hold => h.nonNegative e.kind e.id old hold) (.write row) hs
          have htwice : twice = (.ok .unchanged, t.insert e.kind row) := by
            simp only [twice, honce, apply_unchanged hfree hs']
          rw [htwice, honce]
          exact ⟨rfl, .written⟩

end Tables

end EventIndex
