import EventIndex.Error

/-!
# Batch reports

What became of the events of a batch. An event that is not after the checkpoint is replayed or out
of order; every other event advances the checkpoint and is counted once more, by what it did.
-/

namespace EventIndex

structure BatchReport where
  contract : ContractId
  eventsSeen : Nat
  /-- Events added to the log. -/
  indexed : Nat
  /-- Events that were in the log although they are after the checkpoint. -/
  alreadyLogged : Nat
  written : Nat
  unchanged : Nat
  /-- Events of unknown topics. -/
  ignored : Nat
  /-- Events delivered again. -/
  replayed : Nat
  decodeFailures : List EventContext
  rejected : List Rejection
  orderingViolations : List OrderingViolation
  logConflicts : List EventContext
  /-- The checkpoint after the batch. -/
  lastPosition : Option Position
deriving DecidableEq

namespace BatchReport

def empty (contract : ContractId) : BatchReport where
  contract := contract
  eventsSeen := 0
  indexed := 0
  alreadyLogged := 0
  written := 0
  unchanged := 0
  ignored := 0
  replayed := 0
  decodeFailures := []
  rejected := []
  orderingViolations := []
  logConflicts := []
  lastPosition := none

/-- The events that advanced the checkpoint. -/
def advanced (r : BatchReport) : Nat :=
  r.written + r.unchanged + r.ignored + r.decodeFailures.length + r.rejected.length +
    r.logConflicts.length

/-- Whether every event was applied or had been applied before. -/
def isClean (r : BatchReport) : Bool :=
  r.decodeFailures.isEmpty && r.rejected.isEmpty && r.orderingViolations.isEmpty &&
    r.logConflicts.isEmpty

end BatchReport

end EventIndex
