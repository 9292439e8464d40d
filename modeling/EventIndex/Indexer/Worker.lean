import EventIndex.Indexer.Effect

/-!
# Workers

A worker indexes one contract. It goes on from the checkpoint, fetches a batch, processes it in one
transaction and commits it before it fetches again. It ends when it is told to, when there is
nothing left to fetch, or on an error that retrying does not mend.
-/

namespace EventIndex

inductive Exit where
  | stopped
  | caughtUp
  | paused (e : IndexerError)
deriving DecidableEq

def Exit.name : Exit → String
  | stopped => "Stopped"
  | caughtUp => "CaughtUp"
  | paused _ => "Paused"

structure WorkerReport where
  contract : ContractId
  exit : Exit
  /-- The batches that were committed. -/
  batches : Nat
  /-- The events in these batches. -/
  events : Nat
  /-- The checkpoint when the worker ended. -/
  lastPosition : Option Position
deriving DecidableEq

def WorkerReport.isPaused (r : WorkerReport) : Bool :=
  r.exit matches .paused _

abbrev Job (α : Type) := Program Effect.signature α

namespace Job

def perform (e : Effect) : Job e.Answer :=
  Program.ask (S := Effect.signature) e

/-- Does a batch in the open transaction. -/
def ofBatch {α : Type} (b : Batch α) : ExceptT IndexerError Job α :=
  ExceptT.mk (b.run.expand fun r => perform (.request r))

/-- Does a batch in a transaction of its own, which is committed if the batch succeeds. -/
def transact {α : Type} (contract : ContractId) (b : Batch α) : Job (Except IndexerError α) := do
  match (← perform (.start contract)) with
  | .error e => pure (.error (.storage e))
  | .ok () =>
    match (← (ofBatch b).run) with
    | .error e =>
      perform .abandon
      pure (.error e)
    | .ok a => return (← perform .commit).mapError IndexerError.storage |>.map fun _ => a

/-- Retries a job by the policy, and counts the retries. -/
def retrying {α : Type} (policy : RetryPolicy) (contract : ContractId)
    (job : Job (Except IndexerError α)) : Job (Except IndexerError α) := do
  let result ← policy.run job fun _ _ => perform .recordRetry
  return result.mapError (IndexerError.ofFailure contract)

end Job

namespace BatchReport

def line (r : BatchReport) : Option Line :=
  if r.isClean then none
  else some (.warn "batch committed with surfaced errors"
    [("contract", r.contract.address), ("events", toString r.eventsSeen),
      ("written", toString r.written), ("decode_failures", toString r.decodeFailures.length),
      ("rejected", toString r.rejected.length),
      ("ordering_violations", toString r.orderingViolations.length),
      ("log_conflicts", toString r.logConflicts.length)])

end BatchReport

namespace Job

def process (policy : RetryPolicy) (contract : ContractId) (events : List RawEvent) :
    Job (Except IndexerError BatchReport) := do
  let started ← Program.clock
  match (← retrying policy contract (transact contract (Batch.process contract events))) with
  | .error e => pure (.error e)
  | .ok report =>
    let ended ← Program.clock
    perform (.recordBatch report (started.nanosUntil ended))
    if let some line := report.line then Program.write line
    pure (.ok report)

/-- Derives the rows of a contract anew from its log, in one transaction. -/
def rebuild (policy : RetryPolicy) (contract : ContractId) :
    Job (Except IndexerError BatchReport) := do
  match (← retrying policy contract (transact contract (Batch.rebuild contract))) with
  | .error e => pure (.error e)
  | .ok report =>
    Program.write (.info "rebuilt projection from log"
      [("contract", contract.address), ("replayed", toString report.eventsSeen),
        ("written", toString report.written), ("rejected", toString report.rejected.length)])
    pure (.ok report)

def resumePosition (contract : ContractId) : Job (Except StorageError (Option Position)) := do
  return (← perform (.query contract .checkpoint)).map fun c => c.map Checkpoint.position

end Job

structure Worker where
  config : Config
  contract : ContractId
  batches : Nat
  events : Nat
  /-- The checkpoint, as far as the worker knows. -/
  after : Option Position

namespace Worker

def start (config : Config) (contract : ContractId) (after : Option Position) : Worker :=
  ⟨config, contract, 0, 0, after⟩

def advance (w : Worker) (report : BatchReport) : Worker :=
  { w with
    batches := w.batches + 1
    events := w.events + report.eventsSeen
    after := report.lastPosition <|> w.after }

def fetch (w : Worker) : Job (Except IndexerError (List RawEvent)) :=
  Job.retrying w.config.retryPolicy w.contract do
    return (← Job.perform (.fetch w.contract w.after w.config.batchSize.toNat)).mapError
      IndexerError.source

/-- Waits for new events, unless a stop was requested. -/
def wait (w : Worker) : Job Unit := do
  unless (← Job.perform .stopRequested) do
    Program.wait w.config.pollInterval

/-- Fetches and processes one batch. Gives the worker after it, and the reason if it has ended. -/
def round (w : Worker) : Job (Worker × Option Exit) := do
  if ← Job.perform .stopRequested then pure (w, some .stopped)
  else
    match (← w.fetch) with
    | .error e => pure (w, some (.paused e))
    | .ok [] =>
      if w.config.stopWhenCaughtUp then pure (w, some .caughtUp)
      else
        w.wait
        pure (w, none)
    | .ok events =>
      match (← Job.process w.config.retryPolicy w.contract events) with
      | .error e => pure (w, some (.paused e))
      | .ok report => pure (w.advance report, none)

def pausedLine (contract : ContractId) (e : IndexerError) : Line :=
  .error "worker paused" [("contract", contract.address), ("error", e.message)]

/-- Writes the last line of a worker and gives its report. -/
def finish (w : Worker) (exit : Exit) : Job WorkerReport := do
  match exit with
  | .paused e => Program.write (pausedLine w.contract e)
  | _ =>
    Program.write (.info "worker stopped"
      [("contract", w.contract.address), ("exit", exit.name), ("batches", toString w.batches),
        ("events", toString w.events)])
  pure ⟨w.contract, exit, w.batches, w.events, w.after⟩

/-- Works for at most so many rounds; `none` if the worker has not ended by then. -/
def rounds (w : Worker) : Nat → Job (Option WorkerReport)
  | 0 => pure none
  | n + 1 => do
    match (← w.round) with
    | (w, none) => w.rounds n
    | (w, some exit) => some <$> w.finish exit

/-- Resumes the contract and works for at most so many rounds. -/
def run (config : Config) (contract : ContractId) (limit : Nat) : Job (Option WorkerReport) := do
  let resumed ← Job.retrying config.retryPolicy contract do
    return (← Job.resumePosition contract).mapError IndexerError.storage
  match resumed with
  | .error e =>
    Program.write (pausedLine contract e)
    pure (some ⟨contract, .paused e, 0, 0, none⟩)
  | .ok after =>
    Program.write (.info "worker started" [("contract", contract.address)])
    (start config contract after).rounds limit

end Worker

end EventIndex
