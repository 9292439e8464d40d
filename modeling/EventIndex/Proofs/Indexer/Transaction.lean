import EventIndex.Indexer.Run
import EventIndex.Proofs.Store.Direct

/-! # Transactions of the indexer

A batch that is done in a transaction of its own over the store in memory: what it gives is
committed as a whole, unless it fails or the commit is refused. -/

namespace EventIndex

open Program

namespace MemoryStore

variable {α : Type}

/-- What comes of a batch that ends with the result and the data, and the store after it. -/
def settle (s : MemoryStore) (contract : ContractId) :
    Except IndexerError α → Partition → Except IndexerError α × MemoryStore
  | .error e, _ => (.error e, s)
  | .ok a, p =>
    match s.commitFailures with
    | n + 1 => (.error (.storage .commitRefused), { s with commitFailures := n })
    | 0 => (.ok a, { s with partitions := s.partitions.insert contract p })

theorem partition_insert (s : MemoryStore) (contract other : ContractId) (p : Partition) (n : Nat) :
    partition ⟨s.partitions.insert contract p, n⟩ other =
      if contract = other then p else s.partition other := by
  simp [partition, Std.ExtTreeMap.getD_insert]

theorem partition_insert_self (s : MemoryStore) (contract : ContractId) (p : Partition) (n : Nat) :
    partition ⟨s.partitions.insert contract p, n⟩ contract = p := by
  rw [partition_insert, if_pos rfl]

theorem partition_insert_of_ne (s : MemoryStore) {contract other : ContractId}
    (h : other ≠ contract) (p : Partition) (n : Nat) :
    partition ⟨s.partitions.insert contract p, n⟩ other = s.partition other := by
  rw [partition_insert, if_neg h.symm]

theorem partition_eq_of_getElem? {s t : MemoryStore} {contract : ContractId}
    (h : s.partitions[contract]? = t.partitions[contract]?) :
    s.partition contract = t.partition contract := by
  rw [partition, partition, Std.ExtTreeMap.getD_eq_getD_getElem?, h,
    Std.ExtTreeMap.getD_eq_getD_getElem?]

theorem partition_congr {s t : MemoryStore} (h : s.partitions = t.partitions)
    (contract : ContractId) : s.partition contract = t.partition contract := by
  rw [partition, h, partition]

theorem partition_failCommits (s : MemoryStore) (contract : ContractId) (n : Nat) :
    (s.failCommits n).partition contract = s.partition contract := rfl

theorem settle_ok {s : MemoryStore} {contract : ContractId} {r : Except IndexerError α}
    {p : Partition} {a : α} (h : (s.settle contract r p).1 = .ok a) :
    r = .ok a ∧ (s.settle contract r p).2.partition contract = p := by
  cases r with
  | error e => cases h
  | ok b =>
    cases hf : s.commitFailures with
    | succ n => simp [settle, hf] at h
    | zero =>
      obtain rfl : b = a := by simpa [settle, hf] using h
      exact ⟨rfl, by simp [settle, hf, partition_insert]⟩

/-- A batch that is done fails only if its commit is refused, which uses up a refusal. -/
theorem settle_ok_error {s : MemoryStore} {contract : ContractId} {a : α} {p : Partition}
    {e : IndexerError} (h : (s.settle contract (.ok a) p).1 = .error e) :
    e = .storage .commitRefused ∧
      s.commitFailures = (s.settle contract (.ok a) p).2.commitFailures + 1 := by
  cases hf : s.commitFailures with
  | succ n =>
    simp only [settle, hf, Except.error.injEq] at h ⊢
    exact ⟨h.symm, trivial⟩
  | zero => simp [settle, hf] at h

theorem settle_error {s : MemoryStore} {contract : ContractId} {r : Except IndexerError α}
    {p : Partition} {e : IndexerError} (h : (s.settle contract r p).1 = .error e) :
    (s.settle contract r p).2.partitions = s.partitions := by
  cases r with
  | error e => rfl
  | ok b =>
    cases hf : s.commitFailures with
    | succ n => simp [settle, hf]
    | zero => simp [settle, hf] at h

theorem settle_other (s : MemoryStore) (contract : ContractId) (r : Except IndexerError α)
    (p : Partition) {other : ContractId} (h : other ≠ contract) :
    (s.settle contract r p).2.partitions[other]? = s.partitions[other]? := by
  unfold settle
  split
  · rfl
  · split
    · rfl
    · simp [Std.ExtTreeMap.getElem?_insert, h.symm]

/-- Without failures to come the batch is committed, and none come. -/
theorem settle_of_commitFailures_eq_zero {s : MemoryStore} (h : s.commitFailures = 0)
    (contract : ContractId) (a : α) (p : Partition) :
    s.settle contract (.ok a) p =
      (.ok a, { s with partitions := s.partitions.insert contract p }) := by
  simp [settle, h]

end MemoryStore

namespace Job

variable {α : Type}

def conclude : Except IndexerError α → Job (Except IndexerError α)
  | .error e => do
    perform .abandon
    pure (.error e)
  | .ok a => return (← perform .commit).mapError IndexerError.storage |>.map fun _ => a

theorem transact_eq (contract : ContractId) (b : Batch α) :
    transact contract b = perform (.start contract) >>= fun started =>
      match started with
      | .error e => pure (.error (.storage e))
      | .ok () => (ofBatch b).run >>= conclude := rfl

end Job

namespace World

variable {ρ α : Type} [EventSource ρ]

def transact (w : World MemoryStore ρ) (contract : ContractId) (b : Batch α) :
    Except IndexerError α × World MemoryStore ρ :=
  w.perform (Job.transact contract b)

private def requestHandler : Handler Request.signature (StateM (Desk MemoryStore ρ)) where
  answer r := fun d => d.answer (.request r)
  note := Desk.handler.note
  now := Desk.handler.now
  pause := Desk.handler.pause

private theorem run_ofBatch_eq (b : Batch α) :
    (Job.ofBatch b).run.run (Desk.handler : Handler _ (StateM (Desk MemoryStore ρ))) =
      b.run.run requestHandler :=
  run_expand Desk.handler _ b.run

/-- The transaction of the desk, merged into the data, gives `p`. Store and metrics are as they
were. -/
def Merges (contract : ContractId) (store : MemoryStore) (metrics : Metrics)
    (d : Desk MemoryStore ρ) (p : Partition) : Prop :=
  (d.world.store = store ∧ d.world.metrics = metrics) ∧
    ∃ w : WriteSet, d.tx = some w ∧ w.contract = contract ∧
      w.mergeInto (store.partition contract) = p

private theorem merges_request {contract : ContractId} {store : MemoryStore} {metrics : Metrics}
    {d : Desk MemoryStore ρ} {p : Partition} (h : Merges contract store metrics d p)
    (r : Request) :
    (d.answer (.request r)).1 = (p.request r).1 ∧
      Merges contract store metrics (d.answer (.request r)).2 (p.request r).2 := by
  obtain ⟨world, tx⟩ := d
  obtain ⟨⟨rfl, rfl⟩, w, rfl, rfl, rfl⟩ := h
  refine ⟨w.request_answer _ r, ⟨rfl, rfl⟩, _, rfl, w.request_contract _ r, ?_⟩
  exact w.request_mergeInto _ r

private theorem requestHandler_obeys (contract : ContractId) (store : MemoryStore)
    (metrics : Metrics) :
    (requestHandler : Handler _ (StateM (Desk MemoryStore ρ))).Obeys Partition.rule
      (Merges contract store metrics) where
  note _ _ _ h := h
  now _ _ h := h
  pause _ _ _ h := h
  answer := by
    intro r Q d p hd hQ
    obtain ⟨hanswer, hnext⟩ := merges_request hd r
    refine ⟨_, hnext, ?_⟩
    change Q (d.answer (.request r)).1 _
    rwa [hanswer]

/-- What is proved of a batch on the data that the transaction sees holds of what it does to them.
-/
theorem run_ofBatch_spec {contract : ContractId} {store : MemoryStore} {metrics : Metrics}
    {d : Desk MemoryStore ρ} {p : Partition} (hd : Merges contract store metrics d p) (b : Batch α)
    {Q : Except IndexerError α → Partition → Prop} (h : b.run.wp Partition.rule Q p) :
    let ended := ((Job.ofBatch b).run.run Desk.handler).run d
    ∃ p', Merges contract store metrics ended.2 p' ∧ Q ended.1 p' := by
  intro ended
  simp only [ended]
  rw [run_ofBatch_eq]
  exact run_of_wp (requestHandler_obeys contract store metrics) b.run hd h

private theorem run_conclude {contract : ContractId} {store : MemoryStore} {metrics : Metrics}
    {d : Desk MemoryStore ρ} {p : Partition} (hd : Merges contract store metrics d p)
    (r : Except IndexerError α) :
    let ended := ((Job.conclude r).run Desk.handler).run d
    ended.1 = (store.settle contract r p).1 ∧
      ended.2.world.store = (store.settle contract r p).2 ∧ ended.2.world.metrics = metrics := by
  obtain ⟨world, tx⟩ := d
  obtain ⟨⟨rfl, rfl⟩, w, rfl, rfl, rfl⟩ := hd
  cases r with
  | error e => exact ⟨rfl, rfl, rfl⟩
  | ok a =>
    change ((MemoryStore.commit w world.store).1.mapError IndexerError.storage).map
      (fun _ => a) = _ ∧ (MemoryStore.commit w world.store).2 = _ ∧ _
    cases hf : world.store.commitFailures with
    | succ n => exact ⟨by simp [MemoryStore.commit, MemoryStore.settle, hf, Except.mapError,
        Except.map], by simp [MemoryStore.commit, MemoryStore.settle, hf], rfl⟩
    | zero => exact ⟨by simp [MemoryStore.commit, MemoryStore.settle, hf, Except.mapError,
        Except.map], by simp [MemoryStore.commit, MemoryStore.settle, hf], rfl⟩

private theorem run_transact_spec (w : World MemoryStore ρ) (contract : ContractId) (b : Batch α)
    {Q : Except IndexerError α → Partition → Prop}
    (h : b.run.wp Partition.rule Q (w.store.partition contract)) :
    ∃ r p, Q r p ∧ (w.transact contract b).1 = (w.store.settle contract r p).1 ∧
      (w.transact contract b).2.store = (w.store.settle contract r p).2 ∧
      (w.transact contract b).2.metrics = w.metrics := by
  let d : Desk MemoryStore ρ := ⟨w, some (WriteSet.start contract)⟩
  have hd : Merges contract w.store w.metrics d (w.store.partition contract) :=
    ⟨⟨rfl, rfl⟩, _, rfl, rfl, WriteSet.mergeInto_start _ _⟩
  obtain ⟨p, hmerges, hQ⟩ := run_ofBatch_spec hd b h
  have hrun : ((Job.transact contract b).run Desk.handler).run ⟨w, none⟩ =
      (((Job.ofBatch b).run >>= Job.conclude).run Desk.handler).run d := by
    rw [Job.transact_eq, run_bind_run]
    rfl
  refine ⟨_, p, hQ, ?_⟩
  simp only [transact, perform, hrun, run_bind_run]
  exact run_conclude hmerges _

/-- What is proved of a batch on the committed data holds of what its transaction commits. -/
theorem transact_spec (w : World MemoryStore ρ) (contract : ContractId) (b : Batch α)
    {Q : Except IndexerError α → Partition → Prop}
    (h : b.run.wp Partition.rule Q (w.store.partition contract)) :
    ∃ r p, Q r p ∧ (w.transact contract b).1 = (w.store.settle contract r p).1 ∧
      (w.transact contract b).2.store = (w.store.settle contract r p).2 := by
  obtain ⟨r, p, hQ, hresult, hstore, -⟩ := w.run_transact_spec contract b h
  exact ⟨r, p, hQ, hresult, hstore⟩

theorem metrics_transact (w : World MemoryStore ρ) (contract : ContractId) (b : Batch α) :
    (w.transact contract b).2.metrics = w.metrics := by
  obtain ⟨_, _, -, -, -, hmetrics⟩ := w.run_transact_spec contract b (wp_true _ _ _)
  exact hmetrics

end World

end EventIndex
