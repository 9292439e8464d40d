import EventIndex.Store.Request

/-!
# The log

Every event that is seen is recorded in the log at its position, decoded or not, and only once.
-/

namespace EventIndex

inductive Logged where
  | appended
  /-- The same event is in the log. -/
  | alreadyPresent
deriving DecidableEq, Repr

/-- Another event is in the log at the position of this one. -/
structure LogConflict where
  contract : ContractId
  position : Position
  existingTopic : String
  incomingTopic : String
deriving DecidableEq

def LogConflict.message (c : LogConflict) : String :=
  s!"log conflict for {c.contract.address} at {c.position.text}: " ++
    s!"{c.existingTopic} already logged, got {c.incomingTopic}"

namespace Log

def record (x : LogEntry) : Session (Except LogConflict Logged) := do
  match (← Session.ask (.entry x.position)) with
  | some old =>
    if old.sameEvent x then pure (.ok .alreadyPresent)
    else pure (.error ⟨x.contract, x.position, old.topic, x.topic⟩)
  | none =>
    Session.ask (.append x)
    pure (.ok .appended)

def sort (entries : List LogEntry) : List LogEntry :=
  entries.mergeSort fun a b => a.position ≤ b.position

def lookup (p : Position) : Session (Option LogEntry) :=
  Session.ask (.entry p)

end Log

end EventIndex
