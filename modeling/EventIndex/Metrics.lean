import EventIndex.Batch.Report

/-!
# Metrics

Counters of what the indexer has done. They are words and wrap. A batch is counted when it has been
committed.
-/

namespace EventIndex

structure Metrics where
  eventsIndexed : UInt64
  decodeFailures : UInt64
  eventsProjected : UInt64
  replaysSkipped : UInt64
  orderingViolations : UInt64
  integrityErrors : UInt64
  invalidTransitions : UInt64
  quarantinedEvents : UInt64
  transientRetries : UInt64
  batchesCommitted : UInt64
  processingNanos : UInt64
deriving DecidableEq, Repr

namespace Metrics

def zero : Metrics :=
  ⟨0, 0, 0, 0, 0, 0, 0, 0, 0, 0, 0⟩

/-- The refused events of a report of which `p` holds. -/
def countRefusals (p : Refusal → Bool) (r : BatchReport) : UInt64 :=
  UInt64.ofNat (r.rejected.countP fun x => p x.refusal)

/-- Counts a committed batch, which took this many nanoseconds. -/
def recordBatch (m : Metrics) (r : BatchReport) (nanos : Nat) : Metrics :=
  { m with
    eventsIndexed := m.eventsIndexed + UInt64.ofNat r.indexed
    decodeFailures := m.decodeFailures + UInt64.ofNat r.decodeFailures.length
    eventsProjected := m.eventsProjected + UInt64.ofNat r.written
    replaysSkipped := m.replaysSkipped + UInt64.ofNat r.replayed
    orderingViolations := m.orderingViolations + UInt64.ofNat r.orderingViolations.length
    integrityErrors := m.integrityErrors + countRefusals Refusal.isIntegrity r
    invalidTransitions := m.invalidTransitions + countRefusals Refusal.isInvalidTransition r
    quarantinedEvents := m.quarantinedEvents + countRefusals Refusal.isQuarantined r
    batchesCommitted := m.batchesCommitted + 1
    processingNanos := m.processingNanos + UInt64.ofNat (min nanos (UInt64.size - 1)) }

def recordRetry (m : Metrics) : Metrics :=
  { m with transientRetries := m.transientRetries + 1 }

/-- The mean time of a batch; zero if there was none. -/
def averageNanos (m : Metrics) : UInt64 :=
  if m.batchesCommitted = 0 then 0 else m.processingNanos / m.batchesCommitted

def refusals (m : Metrics) : UInt64 :=
  m.integrityErrors + m.invalidTransitions + m.quarantinedEvents

end Metrics

end EventIndex
