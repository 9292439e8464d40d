import EventIndex.Proofs.Projection.Positions

/-! # Events after the row

An event that is after all positions of the row that it meets is never taken for one that has been
applied before. Only the claim of a reward may be found there already, since it is known by what it
says and not by its position. -/

namespace EventIndex

namespace Conflict

/-- The conflicts of an event at the position `p` that is not after the row that it meets. -/
def IsStale (p : Position) : Conflict → Prop
  | recordedAt q | createdAt q | addedAt q | grantedAt q => p ≤ q
  | otherContent | otherEvent .. | precedes .. | claimNotAfter .. => True
  | _ => False

end Conflict

/-- How the step of an event at the position `p` goes that is after the row: it is not refused as if
the event were not, and it changes the row unless the event is `repeated`. -/
structure Progresses {Row : Type} (p : Position) (step : Step Row) (repeated : Prop) : Prop where
  not_stale : ∀ entity conflict, step = .error (.integrity entity conflict) → ¬ conflict.IsStale p
  of_unchanged : step = .ok .unchanged → repeated

namespace Progresses

variable {Row : Type} {p : Position} {repeated : Prop}

theorem write (row : Row) : Progresses p (.ok (.write row)) repeated :=
  ⟨by simp, by simp⟩

theorem invalidTransition (entity : Entity) (standing : Standing) (topic : Topic) :
    Progresses p (.error (.invalidTransition entity standing topic) : Step Row) repeated :=
  ⟨by simp [Refusal.invalidTransition, Refusal.integrity], by simp⟩

theorem integrity (entity : Entity) {conflict : Conflict} (h : ¬ conflict.IsStale p) :
    Progresses p (.error (.integrity entity conflict) : Step Row) repeated where
  not_stale other conflict' heq := by
    obtain ⟨-, rfl⟩ : entity = other ∧ conflict = conflict' := by
      simpa [Refusal.integrity] using heq
    exact h
  of_unchanged := by simp

end Progresses

namespace Proposal

variable {current : Option Proposal} {p : Position}

end Proposal

namespace Reward

variable {current : Option Reward} {p : Position}

end Reward

namespace Grant

variable {current : Option Grant} {p : Position}

end Grant

namespace Payload

end Payload

end EventIndex
