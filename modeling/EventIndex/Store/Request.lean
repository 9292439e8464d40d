import EventIndex.Checkpoint
import EventIndex.Event
import EventIndex.Program
import EventIndex.Row.Table
import EventIndex.Store.Error

/-!
# Requests to a store

What can be asked of a store: requests within a transaction over the data of one contract, and
queries for what has been committed.
-/

namespace EventIndex

inductive Request where
  | checkpoint
  | saveCheckpoint (c : Checkpoint)
  /-- Removes all rows, the frozen entities and the checkpoint, but not the log. -/
  | clear
  | entry (p : Position)
  /-- Adds an entry to the log at a position that is free. -/
  | append (x : LogEntry)
  /-- The log in the order of positions. -/
  | entries
  | row (k : EntityKind) (id : UInt64)
  | saveRow (k : EntityKind) (row : k.Row)
  | quarantine (e : Entity)
  /-- Freezes an entity; one that is frozen stays as it is. -/
  | saveQuarantine (q : Quarantine)

namespace Request

abbrev Answer : Request → Type
  | checkpoint => Option Checkpoint
  | saveCheckpoint _ => Unit
  | clear => Unit
  | entry _ => Option LogEntry
  | append _ => Unit
  | entries => List LogEntry
  | row k _ => Option k.Row
  | saveRow .. => Unit
  | quarantine _ => Option Quarantine
  | saveQuarantine _ => Unit

/-- The name of the request, by which faults are planned. -/
def name : Request → String
  | checkpoint => "checkpoint"
  | saveCheckpoint _ => "save_checkpoint"
  | clear => "clear_projection"
  | entry _ => "indexed_event"
  | append _ => "append_indexed_event"
  | entries => "indexed_events"
  | row k _ => s!"load_{k.name}"
  | saveRow k _ => s!"save_{k.name}"
  | quarantine _ => "load_quarantine"
  | saveQuarantine _ => "save_quarantine"

/-- Requests as the operations of a program; each may fail. -/
abbrev signature : Signature where
  Op := Request
  Answer r := Except StorageError r.Answer

end Request

inductive Query where
  | checkpoint
  | entries
  | row (k : EntityKind) (id : UInt64)
  | snapshot

namespace Query

abbrev Answer : Query → Type
  | checkpoint => Option Checkpoint
  | entries => List LogEntry
  | row k _ => Option k.Row
  | snapshot => Snapshot

def name : Query → String
  | checkpoint => "store.checkpoint"
  | entries => "store.indexed_events"
  | row k _ => s!"store.{k.name}"
  | snapshot => "store.snapshot"

end Query

/-- What is done within a transaction, up to the first error of the store. -/
abbrev Session := ExceptT StorageError (Program Request.signature)

namespace Session

def ask (r : Request) : Session r.Answer :=
  ExceptT.mk (Program.ask (S := Request.signature) r)

def note (line : Line) : Session Unit :=
  ExceptT.lift (Program.write line)

/-- The checkpoint of the contract as the transaction sees it. -/
def tracker (contract : ContractId) : Session Tracker := do
  return Tracker.resume contract (← ask .checkpoint)

/-- Stores the checkpoint if it has moved. -/
def persist (t : Tracker) : Session (Option Checkpoint × Tracker) := do
  if t.dirty then
    match t.unsaved? (← ExceptT.lift Program.clock) with
    | some c =>
      ask (.saveCheckpoint c)
      pure (some c, { t with dirty := false })
    | none => pure (none, t)
  else pure (none, t)

end Session

end EventIndex
