import EventIndex.Position
import EventIndex.Time.Timestamp

/-!
# Checkpoints

The checkpoint of a contract is the position of the last event that was applied. It only moves
forward.
-/

namespace EventIndex

structure Checkpoint where
  contract : ContractId
  position : Position
  eventsApplied : UInt64
  updatedAt : Timestamp
deriving DecidableEq

inductive CheckpointError where
  | notMonotonic (contract : ContractId) (current attempted : Position)
deriving DecidableEq

def CheckpointError.message : CheckpointError → String
  | notMonotonic contract current attempted =>
    s!"checkpoint for {contract.address} cannot move from {current.text} to {attempted.text}"

/-- The checkpoint of a contract while a batch is processed. -/
structure Tracker where
  contract : ContractId
  position : Option Position
  eventsApplied : UInt64
  /-- Whether the checkpoint has moved since it was last stored. -/
  dirty : Bool
deriving DecidableEq

namespace Tracker

def start (contract : ContractId) : Tracker :=
  ⟨contract, none, 0, false⟩

/-- Goes on from a stored checkpoint, if there is one. -/
def resume (contract : ContractId) : Option Checkpoint → Tracker
  | none => start contract
  | some c => ⟨contract, some c.position, c.eventsApplied, false⟩

/-- The checkpoint, if it is at `p` or after it. -/
def reached? (t : Tracker) (p : Position) : Option Position :=
  t.position.filter (p ≤ ·)

def isApplied (t : Tracker) (p : Position) : Bool :=
  (t.reached? p).isSome

/-- The next count of events, which stays at the greatest word. -/
def countUp (n : UInt64) : UInt64 :=
  UInt64.ofNat (min (n.toNat + 1) (UInt64.size - 1))

def advance (t : Tracker) (p : Position) : Except CheckpointError Tracker :=
  match t.reached? p with
  | some current => .error (.notMonotonic t.contract current p)
  | none =>
    .ok { t with position := some p, eventsApplied := countUp t.eventsApplied, dirty := true }

/-- The checkpoint that is to be stored, if it has moved. -/
def unsaved? (t : Tracker) (now : Timestamp) : Option Checkpoint :=
  if t.dirty then t.position.map fun p => ⟨t.contract, p, t.eventsApplied, now⟩ else none

end Tracker

end EventIndex
