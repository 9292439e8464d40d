import EventIndex.Checkpoint
import EventIndex.Config
import EventIndex.Event
import EventIndex.Projection.Refusal
import EventIndex.Store.Error

/-!
# Errors of the indexer

What stops a batch or a worker, and what is reported of single events without stopping it.
-/

namespace EventIndex

inductive SourceError where
  | unavailable (reason : String)
  | invalidLine (line : Nat) (reason : String)
  | unreadable (reason : String)
deriving DecidableEq, Repr

namespace SourceError

/-- Whether fetching again may succeed. -/
def isTransient : SourceError → Bool
  | unavailable _ => true
  | invalidLine .. | unreadable _ => false

def message : SourceError → String
  | unavailable reason => s!"event source unavailable: {reason}"
  | invalidLine line reason => s!"invalid event on line {line}: {reason}"
  | unreadable reason => s!"failed to read events: {reason}"

end SourceError

structure Rejection where
  context : EventContext
  refusal : Refusal
deriving DecidableEq

def Rejection.message (r : Rejection) : String :=
  s!"{r.context.text}: {r.refusal.message}"

/-- An event that is not after the checkpoint and is not in the log either. -/
structure OrderingViolation where
  context : EventContext
  checkpoint : Position
  /-- Whether another event is in the log at its position. -/
  conflictsWithLog : Bool
deriving DecidableEq

def OrderingViolation.message (v : OrderingViolation) : String :=
  s!"ordering violation: {v.context.text} is not after checkpoint {v.checkpoint.text}"

inductive IndexerError where
  | config (e : ConfigError)
  | storage (e : StorageError)
  | checkpoint (e : CheckpointError)
  | source (e : SourceError)
  | serialization (e : Json.Error)
  /-- An event of one contract was delivered for another. -/
  | foreignEvent (expected actual : ContractId)
  | retriesExhausted (contract : ContractId) (attempts : Nat) (last : IndexerError)
deriving DecidableEq

namespace IndexerError

/-- Whether the batch may succeed when it is tried again. -/
def isRetriable : IndexerError → Bool
  | storage e => e.isTransient
  | source e => e.isTransient
  | _ => false

def message : IndexerError → String
  | config e => s!"configuration error: {e.message}"
  | storage e => e.message
  | checkpoint e => e.message
  | source e => e.message
  | serialization e => s!"serialization error: {e.message}"
  | foreignEvent expected actual =>
    s!"event of {actual.address} delivered to the worker of {expected.address}"
  | retriesExhausted contract attempts last =>
    s!"retries exhausted for {contract.address} after {attempts} attempts: {last.message}"

/-- The error of a worker whose attempts have failed. -/
def ofFailure (contract : ContractId) (f : RetryFailure IndexerError) : IndexerError :=
  if f.error.isRetriable then .retriesExhausted contract f.attempts f.error else f.error

end IndexerError

instance : Retriable IndexerError where
  isRetriable := IndexerError.isRetriable
  message := IndexerError.message

end EventIndex
