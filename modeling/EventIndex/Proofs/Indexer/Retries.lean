import EventIndex.Proofs.Indexer.Call

/-! # Refused commits

A batch whose commit is refused is tried again. Nothing of the attempts in vain is left, neither in
the store nor in the report nor in what is counted, but for the number of retries. -/

namespace EventIndex

namespace World

variable {ρ : Type}

/-- The world whose next commits are refused, so many of them. -/
def refusing (w : World MemoryStore ρ) (k : Nat) : World MemoryStore ρ :=
  { w with store := w.store.failCommits k }

variable [EventSource ρ] {w : World MemoryStore ρ} {contract : ContractId} {es : List RawEvent}

/-! ## The three ways in which a call ends -/

theorem process_of_le (hes : ∀ e ∈ es, e.contract = contract) {policy : RetryPolicy}
    (hk : w.store.commitFailures ≤ policy.maxRetries.toNat) :
    let settled := (w.store.partition contract).settled contract es
    let called := w.perform (Job.process policy contract es)
    ∃ p' nanos, p'.undated = settled.2 ∧ called.1 = .ok settled.1 ∧
      called.2.store = ⟨w.store.partitions.insert contract p', 0⟩ ∧
      called.2.metrics =
        (w.metrics.recordRetries w.store.commitFailures).recordBatch settled.1 nanos := by
  intro settled called
  obtain ⟨retries, last, hdecided, -, hcounted⟩ := w.perform_process_after policy contract es
  have hcount := hdecided.retried.commitFailures_eq (w.commits_process hes)
  have hpartitions := hdecided.retried.partitions_eq
  obtain ⟨p', hp', hanswer, hstore⟩ := transact_settled (w := last) hes
  have hdata : last.store.partition contract = w.store.partition contract :=
    hdecided.decidedBy.partition_eq contract
  rw [hdata] at hp' hanswer hstore
  have hnone : last.store.commitFailures = 0 := by
    by_contra hrefused
    obtain ⟨n, hn⟩ := Nat.exists_eq_succ_of_ne_zero hrefused
    have herror : (last.transact contract (Batch.process contract es)).1 =
        .error (.storage .commitRefused) := by
      simp only [hanswer, MemoryStore.settle, hn]
    have hretries := hdecided.exhausted _ herror rfl
    dsimp only at hcount
    omega
  rw [MemoryStore.settle_of_commitFailures_eq_zero hnone] at hanswer hstore
  have hok : called.1 = .ok settled.1 := (hdecided.decidedBy.answer_iff _).mpr hanswer
  obtain ⟨nanos, hnanos⟩ := hcounted _ hok
  refine ⟨p', nanos, hp', hok, ?_, ?_⟩
  · rw [hdecided.store_eq, hstore, hpartitions, hnone]
  · rw [hnanos, hdecided.retried.metrics_eq, ← hcount, hnone, Nat.zero_add]

private theorem process_of_lt (hes : ∀ e ∈ es, e.contract = contract) {policy : RetryPolicy}
    (hk : policy.maxRetries.toNat < w.store.commitFailures) :
    let limit := policy.maxRetries.toNat
    let called := w.perform (Job.process policy contract es)
    called.1 = .error (.retriesExhausted contract (limit + 1) (.storage .commitRefused)) ∧
      called.2.store = w.store.failCommits (w.store.commitFailures - limit - 1) ∧
      called.2.metrics = w.metrics.recordRetries limit := by
  intro limit called
  obtain ⟨retries, last, hdecided, hcounted, -⟩ := w.perform_process_after policy contract es
  have hcount := hdecided.retried.commitFailures_eq (w.commits_process hes)
  have hle := hdecided.retries_le
  dsimp only at hcount
  obtain ⟨n, hn⟩ : ∃ n, last.store.commitFailures = n + 1 :=
    Nat.exists_eq_succ_of_ne_zero (by omega)
  obtain ⟨p', -, hanswer, hstore⟩ := transact_settled (w := last) hes
  simp only [MemoryStore.settle, hn] at hanswer hstore
  have hretries : retries = limit := hdecided.exhausted _ hanswer rfl
  have herror : called.1 =
      .error (.retriesExhausted contract (limit + 1) (.storage .commitRefused)) := by
    rw [hdecided.answer_eq, hanswer, hretries]
    rfl
  refine ⟨herror, ?_, ?_⟩
  · have hleft : n = w.store.commitFailures - limit - 1 := by omega
    rw [hdecided.store_eq, hstore, hdecided.retried.partitions_eq, hleft]
    rfl
  · rw [hcounted _ herror, hdecided.retried.metrics_eq, hretries]

private theorem process_of_foreign {e : RawEvent} (he : es.find? (·.contract ≠ contract) = some e)
    (policy : RetryPolicy) :
    let called := w.perform (Job.process policy contract es)
    called.1 = .error (.foreignEvent contract e.contract) ∧ called.2.store = w.store ∧
      called.2.metrics = w.metrics := by
  intro called
  obtain ⟨retries, last, hdecided, hcounted, -⟩ := w.perform_process_after policy contract es
  obtain ⟨hanswer, hstore⟩ := transact_foreign (w := { w with looks := w.looks + 1 }) he
  obtain ⟨rfl, rfl⟩ := hdecided.retried.eq_of_not_retriable hanswer rfl
  have herror : called.1 = .error (.foreignEvent contract e.contract) := by
    rw [hdecided.answer_eq, hanswer]
    rfl
  exact ⟨herror, hdecided.store_eq.trans hstore, hcounted _ herror⟩

/-- Whatever the data are and however many commits are refused: as long as attempts are left, a
batch ends as if no commit was refused, but for dates, the retries and the time that are counted.
Else it fails and has changed no data, and only the retries are counted. An event of another
contract ends it without a retry. -/
theorem process_refusing (w : World MemoryStore ρ) (policy : RetryPolicy) (contract : ContractId)
    (es : List RawEvent) (k : Nat) :
    let limit := policy.maxRetries.toNat
    let called := (w.refusing k).perform (Job.process policy contract es)
    let granted := (w.refusing 0).perform (Job.process policy contract es)
    ((∀ e ∈ es, e.contract = contract) → k ≤ limit →
      ∃ report nanos, granted.1 = .ok report ∧ called.1 = .ok report ∧
        (∀ c : ContractId, called.2.store.partitions[c]?.map Partition.undated =
          granted.2.store.partitions[c]?.map Partition.undated) ∧
        called.2.store.commitFailures = 0 ∧
        called.2.metrics.transientRetries = w.metrics.transientRetries + .ofNat k ∧
        called.2.metrics.batchesCommitted = w.metrics.batchesCommitted + 1 ∧
        called.2.metrics = { granted.2.metrics with
          transientRetries := w.metrics.transientRetries + .ofNat k, processingNanos := nanos }) ∧
      ((∀ e ∈ es, e.contract = contract) → limit < k →
        called.1 = .error (.retriesExhausted contract (limit + 1) (.storage .commitRefused)) ∧
        StorageError.commitRefused.isTransient ∧
        called.2.store = w.store.failCommits (k - limit - 1) ∧
        called.2.metrics = { w.metrics with
          transientRetries := w.metrics.transientRetries + .ofNat limit }) ∧
      ∀ e, es.find? (·.contract ≠ contract) = some e →
        called.1 = .error (.foreignEvent contract e.contract) ∧
        called.2.store = w.store.failCommits k ∧ called.2.metrics = w.metrics := by
  intro limit called granted
  refine ⟨fun hes hk => ?_, fun hes hk => ?_,
    fun e he => process_of_foreign (w := w.refusing k) he policy⟩
  · obtain ⟨p₀, nanos₀, hp₀, hok₀, hstore₀, hmetrics₀⟩ :=
      process_of_le (w := w.refusing 0) hes (Nat.zero_le limit)
    obtain ⟨p, nanos, hp, hok, hstore, hmetrics⟩ := process_of_le (w := w.refusing k) hes hk
    -- Both calls commit data that are the same without dates, in place of the same data.
    have hdata (c : ContractId) : called.2.store.partitions[c]?.map Partition.undated =
        granted.2.store.partitions[c]?.map Partition.undated := by
      have hundated : p.undated = p₀.undated := hp.trans hp₀.symm
      simp only [called, granted, hstore, hstore₀, Std.ExtTreeMap.getElem?_insert]
      split
      · rw [Option.map_some, Option.map_some, hundated]
      · rfl
    refine ⟨_, called.2.metrics.processingNanos, hok₀, hok, hdata, congrArg _ hstore, ?_, ?_, ?_⟩
    · rw [hmetrics]
      rfl
    · rw [hmetrics]
      rfl
    · rw [hmetrics, hmetrics₀]
      rfl
  · obtain ⟨hanswer, hstore, hmetrics⟩ := process_of_lt (w := w.refusing k) hes hk
    exact ⟨hanswer, rfl, hstore, hmetrics⟩

/-- With one retry, one refused commit is got over, and three are too many. -/
theorem process_refusing_once_and_thrice :
    let contract : ContractId := ⟨"C"⟩
    let event : RawEvent := ⟨contract, "NOTE", .null, 1, .epoch, .replicate 0, 0⟩
    let foreign : RawEvent := ⟨⟨"D"⟩, "NOTE", .null, 2, .epoch, .replicate 0, 0⟩
    let w : World MemoryStore MemorySource := .start .empty .empty
    let called (k : Nat) (es : List RawEvent) :=
      (w.refusing k).perform (Job.process ⟨1, 100, 2.0, 1000⟩ contract es)
    (called 1 [event]).2.metrics.transientRetries = 1 ∧
      (called 1 [event]).2.metrics.batchesCommitted = 1 ∧
      (called 3 [event]).1 = .error (.retriesExhausted contract 2 (.storage .commitRefused)) ∧
      (called 3 [event]).2.store = MemoryStore.empty.failCommits 1 ∧
      (called 3 [event, foreign]).1 = .error (.foreignEvent contract ⟨"D"⟩) ∧
      (called 3 [event, foreign]).2.store = MemoryStore.empty.failCommits 3 := by
  intro contract event foreign w called
  have hes : ∀ e ∈ [event], e.contract = contract := by simp [event]
  obtain ⟨hle, -, -⟩ := w.process_refusing ⟨1, 100, 2.0, 1000⟩ contract [event] 1
  obtain ⟨report, nanos, -, -, -, -, hretries, hbatches, -⟩ := hle hes le_rfl
  obtain ⟨-, hlt, -⟩ := w.process_refusing ⟨1, 100, 2.0, 1000⟩ contract [event] 3
  obtain ⟨herror, -, hstore, -⟩ := hlt hes (by decide)
  obtain ⟨-, -, hforeign⟩ := w.process_refusing ⟨1, 100, 2.0, 1000⟩ contract [event, foreign] 3
  obtain ⟨herror', hstore', -⟩ := hforeign foreign rfl
  dsimp only [called]
  exact ⟨hretries.trans rfl, hbatches.trans rfl, herror, hstore, herror', hstore'⟩

end World

end EventIndex
