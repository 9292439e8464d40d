import EventIndex.Batch.Process
import EventIndex.Metrics
import EventIndex.Source
import EventIndex.Store.Basic

/-!
# Effects of the indexer

What the indexer asks of its surroundings, and the state that it works on: a store, a source, the
metrics and the wish to stop. Each worker has at most one transaction open.
-/

namespace EventIndex

inductive Effect where
  | query (contract : ContractId) (q : Query)
  | fetch (contract : ContractId) (after : Option Position) (limit : Nat)
  /-- Opens a transaction. -/
  | start (contract : ContractId)
  | request (r : Request)
  | commit
  | abandon
  | stopRequested
  | recordBatch (report : BatchReport) (nanos : Nat)
  | recordRetry

namespace Effect

abbrev Answer : Effect → Type
  | query _ q => Except StorageError q.Answer
  | fetch .. => Except SourceError (List RawEvent)
  | start _ => Except StorageError Unit
  | request r => Except StorageError r.Answer
  | commit => Except StorageError Unit
  | abandon => Unit
  | stopRequested => Bool
  | recordBatch .. => Unit
  | recordRetry => Unit

abbrev signature : Signature where
  Op := Effect
  Answer := Answer

end Effect

/-- What the workers share. -/
structure World (σ ρ : Type) where
  store : σ
  source : ρ
  metrics : Metrics
  stop : Bool
  /-- What the clock will show, look by look. -/
  times : Nat → Timestamp
  looks : Nat
  /-- The lines of the journal, the last one first. -/
  journal : List Line

namespace World

variable {σ ρ : Type}

def start (store : σ) (source : ρ) : World σ ρ where
  store := store
  source := source
  metrics := .zero
  stop := false
  times _ := .epoch
  looks := 0
  journal := []

end World

/-- What a worker works on: the shared state, and its open transaction. -/
structure Desk (σ ρ : Type) [Store σ] where
  world : World σ ρ
  tx : Option (Store.Tx σ)

namespace Desk

variable {σ ρ : Type} [Store σ] [EventSource ρ]

def withoutTransaction : StorageError :=
  .permanent "no transaction is open"

def answer (d : Desk σ ρ) : (e : Effect) → e.Answer × Desk σ ρ
  | .query contract q =>
    let (a, store) := Store.query contract q d.world.store
    (a, { d with world := { d.world with store := store } })
  | .fetch contract after limit =>
    let (a, source) := EventSource.fetch contract after limit d.world.source
    (a, { d with world := { d.world with source := source } })
  | .start contract =>
    let (a, store) := Store.start contract d.world.store
    (a.map fun _ => (), ⟨{ d.world with store := store }, a.toOption⟩)
  | .request r =>
    match d.tx with
    | none => (.error withoutTransaction, d)
    | some tx =>
      let (a, tx, store) := Store.request r tx d.world.store
      (a, ⟨{ d.world with store := store }, some tx⟩)
  | .commit =>
    match d.tx with
    | none => (.error withoutTransaction, d)
    | some tx =>
      let (a, store) := Store.commit tx d.world.store
      (a, ⟨{ d.world with store := store }, none⟩)
  | .abandon =>
    match d.tx with
    | none => ((), d)
    | some tx => ((), ⟨{ d.world with store := Store.abandon tx d.world.store }, none⟩)
  | .stopRequested => (d.world.stop || EventSource.asksToStop d.world.source, d)
  | .recordBatch report nanos =>
    ((), { d with
      world := { d.world with metrics := d.world.metrics.recordBatch report nanos } })
  | .recordRetry =>
    ((), { d with world := { d.world with metrics := d.world.metrics.recordRetry } })

/-- Answers all effects from the state. Pauses take no time. -/
def handler : Handler Effect.signature (StateM (Desk σ ρ)) where
  answer e := fun d => d.answer e
  note line := fun d =>
    ((), { d with world := { d.world with journal := line :: d.world.journal } })
  now := fun d =>
    (d.world.times d.world.looks, { d with world := { d.world with looks := d.world.looks + 1 } })
  pause _ := fun d => ((), d)

end Desk

/-- Does a program of the indexer to its end. -/
def World.perform {σ ρ α : Type} [Store σ] [EventSource ρ] (w : World σ ρ)
    (p : Program Effect.signature α) : α × World σ ρ :=
  let (a, d) := (p.run Desk.handler).run ⟨w, none⟩
  (a, d.world)

end EventIndex
