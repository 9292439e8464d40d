import EventIndex.Batch.Report
import EventIndex.Log
import EventIndex.Projection.Apply

/-!
# Processing a batch

The events of a batch are taken one by one within a transaction. An event at or before the
checkpoint is dropped; any other is recorded in the log, decoded and applied, and becomes the
checkpoint. What goes wrong with single events is reported and does not stop the batch; an error of
the store or an event of another contract does.
-/

namespace EventIndex

/-- What is done for a batch within its transaction. -/
abbrev Batch := ExceptT IndexerError (Program Request.signature)

namespace Batch

def ofSession {α : Type} (s : Session α) : Batch α :=
  ExceptT.adapt IndexerError.storage s

def note (line : Line) : Batch Unit :=
  ExceptT.lift (Program.write line)

/-- Drops an event that is not after the checkpoint. It is a replay if it is in the log. -/
def drop (checkpoint : Position) (e : RawEvent) (report : BatchReport) : Batch BatchReport := do
  let logged ← ofSession (Log.lookup e.position)
  if logged.any (·.records e) then pure { report with replayed := report.replayed + 1 }
  else
    let violation := ⟨EventContext.of e, checkpoint, logged.isSome⟩
    note (.warn "dropping event" [("violation", violation.message)])
    pure { report with orderingViolations := report.orderingViolations ++ [violation] }

/-- The log entry for an event, from what it was decoded to. -/
def entryFor (e : RawEvent) (d : Except DecodeError Decoded) (now : Timestamp) : LogEntry :=
  match d with
  | .ok d => .observed e d.payloadJson none now
  | .error error => .observed e none (some error.flaw.message) now

/-- Applies an event that has been logged, if it was decoded. -/
def project (e : RawEvent) (d : Except DecodeError Decoded) (report : BatchReport) :
    Batch BatchReport := do
  let context := EventContext.of e
  match d with
  | .error error =>
    note (.warn "failed to decode event"
      [("context", context.text), ("reason", error.flaw.message)])
    pure { report with decodeFailures := report.decodeFailures ++ [context] }
  | .ok d =>
    match (← ofSession (apply e.contract e.position d)) with
    | .ok .written => pure { report with written := report.written + 1 }
    | .ok .unchanged => pure { report with unchanged := report.unchanged + 1 }
    | .ok .ignored => pure { report with ignored := report.ignored + 1 }
    | .error refusal =>
      note (.error "projection rejected event"
        [("context", context.text), ("error", refusal.message)])
      pure { report with rejected := report.rejected ++ [⟨context, refusal⟩] }

/-- Records an event that is after the checkpoint, and applies it. -/
def index (e : RawEvent) (report : BatchReport) : Batch BatchReport := do
  let d := decode (.classify e.topic) e.payload e.position
  let now ← ExceptT.lift Program.clock
  match (← ofSession (Log.record (entryFor e d now))) with
  | .ok .appended => project e d { report with indexed := report.indexed + 1 }
  | .ok .alreadyPresent => project e d { report with alreadyLogged := report.alreadyLogged + 1 }
  | .error _ =>
    let context := EventContext.of e
    note (.error "a different event is already logged at this position"
      [("context", context.text)])
    pure { report with logConflicts := report.logConflicts ++ [context] }

def take (contract : ContractId) (progress : Tracker × BatchReport) (e : RawEvent) :
    Batch (Tracker × BatchReport) := do
  let (tracker, report) := progress
  let report := { report with eventsSeen := report.eventsSeen + 1 }
  if e.contract ≠ contract then throw (.foreignEvent contract e.contract)
  match tracker.reached? e.position with
  | some checkpoint => return (tracker, ← drop checkpoint e report)
  | none =>
    let report ← index e report
    match tracker.advance e.position with
    | .ok tracker => pure (tracker, report)
    | .error error => throw (.checkpoint error)

/-- Processes the events of a contract in the open transaction, and stores the checkpoint. -/
def process (contract : ContractId) (events : List RawEvent) : Batch BatchReport := do
  let tracker ← ofSession (Session.tracker contract)
  let (tracker, report) ← events.foldlM (take contract) (tracker, .empty contract)
  let (_, tracker) ← ofSession (Session.persist tracker)
  return { report with lastPosition := tracker.position }

/-- Derives the rows of a contract anew from its log, in the open transaction. -/
def rebuild (contract : ContractId) : Batch BatchReport := do
  ofSession (Session.ask .clear)
  let entries ← ofSession (Session.ask .entries)
  process contract (entries.map LogEntry.toRaw)

end Batch

end EventIndex
