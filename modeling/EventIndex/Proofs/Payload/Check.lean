import EventIndex.Decode

/-! # Sensible payloads

What the check of a payload asks beyond its form. -/

namespace EventIndex

/-- The payload makes sense by itself: nothing negative is traded, rewarded or left unvested, a
proposal needs an approval, something is granted and its cliff is within its duration, and something
is claimed. -/
def Payload.Sensible : Payload → Prop
  | tradeExecuted p => 0 ≤ p.baseAmount.val ∧ 0 ≤ p.quoteAmount.val
  | proposalCreated p => 1 ≤ p.approvalThreshold
  | rewardAdded p => 0 ≤ p.amount.val
  | rewardClaimed p => 0 ≤ p.amount.val
  | grant p => 0 < p.amount.val ∧ p.cliffSeconds ≤ p.durationSeconds
  | claim p => 0 < p.amount.val
  | revoke p => 0 ≤ p.unvestedAmount.val
  | proposalApproved _ | proposalRejected _ | proposalCancelled _ | proposalExecuted _ => True

variable {ε α β : Type}

theorem bind_eq_ok_iff {r : Except ε α} {f : α → Except ε β} {b : β} :
    (r >>= f) = .ok b ↔ ∃ a, r = .ok a ∧ f a = .ok b := by
  cases r <;> simp [bind, Except.bind]

theorem map_eq_ok_iff {r : Except ε α} {f : α → β} {b : β} :
    r.map f = .ok b ↔ ∃ a, r = .ok a ∧ f a = b := by
  cases r <;> simp [Except.map]

theorem ite_error_eq_ok_iff {c : Prop} [Decidable c] {e : ε} :
    (if c then .error e else .ok () : Except ε Unit) = .ok () ↔ ¬c := by
  split <;> simp [*]

theorem requireNonNegative_eq_ok_iff {field : String} {a : Amount} :
    requireNonNegative field a = .ok () ↔ 0 ≤ a.val :=
  ite_error_eq_ok_iff.trans Int.not_lt

theorem requirePositive_eq_ok_iff {field : String} {a : Amount} :
    requirePositive field a = .ok () ↔ 0 < a.val :=
  ite_error_eq_ok_iff.trans Int.not_le

theorem then_eq_ok_iff {r s : Except ε Unit} :
    (r >>= fun _ => s) = .ok () ↔ r = .ok () ∧ s = .ok () :=
  bind_eq_ok_iff.trans ⟨fun ⟨(), h⟩ => h, fun h => ⟨(), h⟩⟩

theorem Payload.check_eq_ok_iff {p : Payload} : p.check = .ok () ↔ p.Sensible := by
  cases p with
  | tradeExecuted p =>
    exact then_eq_ok_iff.trans (and_congr requireNonNegative_eq_ok_iff requireNonNegative_eq_ok_iff)
  | proposalCreated p =>
    refine ite_error_eq_ok_iff.trans ?_
    rw [Sensible, UInt32.le_iff_toNat_le, ← UInt32.toNat_inj]
    exact Nat.pos_iff_ne_zero.symm
  | rewardAdded p => exact requireNonNegative_eq_ok_iff
  | rewardClaimed p => exact requireNonNegative_eq_ok_iff
  | grant p =>
    refine then_eq_ok_iff.trans (and_congr requirePositive_eq_ok_iff ?_)
    exact ite_error_eq_ok_iff.trans UInt64.not_lt
  | claim p => exact requirePositive_eq_ok_iff
  | revoke p => exact requireNonNegative_eq_ok_iff
  | proposalApproved p | proposalRejected p | proposalCancelled p | proposalExecuted p =>
    exact iff_of_true rfl trivial

end EventIndex
