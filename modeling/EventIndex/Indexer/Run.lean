import EventIndex.Indexer.Worker
import EventIndex.Replay

/-!
# Running the indexer

One worker runs for each contract. The workers take turns: a worker that pauses goes to the end of
the line. The reports come in the order of the contracts.
-/

namespace EventIndex

namespace Queue

variable {m : Type → Type} [Monad m] {β α : Type}

/-- Lets the first in line work for a turn, over and over. After the last turn those who are left
work to their ends, one after the other. -/
def run (turn : β → m (β ⊕ α)) (finish : β → m α) : (turns : Nat) → List β → m (List α)
  | _, [] => pure []
  | 0, waiting => waiting.mapM finish
  | turns + 1, b :: waiting => do
    match (← turn b) with
    | .inl b => run turn finish turns (waiting ++ [b])
    | .inr a => return a :: (← run turn finish turns waiting)

end Queue

structure Waiting (σ α : Type) [Store σ] where
  job : Job α
  tx : Option (Store.Tx σ)

namespace Waiting

variable {σ ρ α : Type} [Store σ] {m : Type → Type} [Monad m]

/-- Works until the job pauses. -/
def turn (h : Handler Effect.signature (StateT (Desk σ ρ) m)) (b : Waiting σ α) :
    StateT (World σ ρ) m (Waiting σ α ⊕ α) := fun world => do
  match (← (b.job.runTurn h).run ⟨world, b.tx⟩) with
  | (.inl job, d) => pure (.inl ⟨job, d.tx⟩, d.world)
  | (.inr a, d) => pure (.inr a, d.world)

def finish (h : Handler Effect.signature (StateT (Desk σ ρ) m)) (b : Waiting σ α) :
    StateT (World σ ρ) m α := fun world => do
  let (a, d) ← (b.job.run h).run ⟨world, b.tx⟩
  pure (a, d.world)

end Waiting

/-- How often workers may pause before they no longer take turns. -/
def turnLimit : Nat := UInt32.size

namespace Indexer

variable {σ ρ : Type} [Store σ] {m : Type → Type} [Monad m]

def sortReports (reports : List WorkerReport) : List WorkerReport :=
  reports.mergeSort fun a b => (compare a.contract b.contract).isLE

/-- Runs the workers of the configured contracts, each for at most so many rounds. -/
def run (h : Handler Effect.signature (StateT (Desk σ ρ) m)) (config : Config) (rounds : Nat) :
    StateT (World σ ρ) m (Except IndexerError (List WorkerReport)) := do
  match config.validate with
  | .error e => pure (.error (.config e))
  | .ok () =>
    let workers : List (Waiting σ (Option WorkerReport)) :=
      config.contractIds.map fun contract => ⟨Worker.run config contract rounds, none⟩
    let reports ← Queue.run (Waiting.turn h) (Waiting.finish h) turnLimit workers
    let reports := sortReports (reports.filterMap id)
    let line := Line.info "indexer stopped" [("workers", toString reports.length)]
    Waiting.finish h ⟨Program.write line, none⟩
    pure (.ok reports)

end Indexer

/-- Whether the rows of a contract are what its log gives. -/
def Job.matchesLog (contract : ContractId) : Job (Except IndexerError Bool) := do
  match (← perform (.query contract .entries)) with
  | .error e => pure (.error (.storage e))
  | .ok entries =>
    match (← Replay.snapshot contract (Log.sort entries)) with
    | .error e => pure (.error e)
    | .ok replayed =>
      match (← perform (.query contract .snapshot)) with
      | .error e => pure (.error (.storage e))
      | .ok current => .ok <$> Replay.agrees contract replayed current

end EventIndex
