import EventIndex.Proofs.Indexer.Independence
import EventIndex.Proofs.Metrics.Books
import EventIndex.Proofs.Replay.Rebuild
import Mathlib.Algebra.BigOperators.Group.Finset.Piecewise

/-! # Metrics and store reconcile

Between the calls of an indexer nothing is owed, so the metrics show what the store holds. This is
so after all calls, whatever became of them: what is rolled back is not counted, and a rebuild has
nothing to count. -/

namespace EventIndex

open Program

variable {ρ : Type} [EventSource ρ]

theorem Metrics.read_recordRetries (m : Metrics) (n : Nat) :
    (m.recordRetries n).read = m.read := by
  funext c
  cases c <;> rfl

/-- Nothing is owed, and the data of all contracts are derived. -/
structure World.Balanced {ρ : Type} (w : World MemoryStore ρ) (committed : Nat) : Prop where
  books : w.Books 0 committed
  derived : ∀ contract, (w.store.partition contract).Derived contract

/-! ## Workers that keep the books -/

namespace Crew

/-- How many transactions the worker commits in its next step. -/
def commits (c : Crew ρ) (b : Waiting MemoryStore (Option WorkerReport)) : Nat :=
  ((b.job.step Desk.counting).run (⟨c.world, b.tx⟩, 0)).2.2

/-- The workers take their steps in any order, and so many transactions are committed. Meanwhile the
surroundings may do anything but change committed data or metrics. -/
inductive Works (first : Crew ρ) : Crew ρ → Nat → Prop
  | start : Works first first 0
  | work {c : Crew ρ} {n i : Nat} {b : Waiting MemoryStore (Option WorkerReport)}
    (h : Works first c n) (hworker : c.workers[i]? = some b) :
    Works first (c.work i b) (n + c.commits b)
  | surroundings {c : Crew ρ} {n : Nat} {world : World MemoryStore ρ} (h : Works first c n)
    (hdata : world.store.partitions = c.world.store.partitions)
    (hmetrics : world.metrics = c.world.metrics) : Works first ⟨world, c.workers⟩ n

theorem Works.of_steps {first c : Crew ρ} (h : Relation.ReflTransGen Step first c) :
    ∃ n, Works first c n := by
  induction h with
  | refl => exact ⟨0, .start⟩
  | tail _ hstep ih =>
    obtain ⟨n, hworks⟩ := ih
    cases hstep with
    | work hworker => exact ⟨_, hworks.work hworker⟩

/-- The worker owes so much and will settle it. -/
private structure Owes (w : World MemoryStore ρ) (contract : ContractId)
    (b : Waiting MemoryStore (Option WorkerReport)) (owed : Tally) : Prop where
  contract_eq : ∀ tx : WriteSet, b.tx = some tx → tx.contract = contract
  wp_job : b.job.wp (Effect.booked contract)
    (fun _ b => b.data.Derived contract ∧ b.owed = 0 ∧ True)
    ⟨w.store.partition contract, b.tx, owed⟩

namespace Owes

variable {contract : ContractId} {b : Waiting MemoryStore (Option WorkerReport)} {owed : Tally}

omit [EventSource ρ] in
private theorem congr {w w' : World MemoryStore ρ} (h : Owes w contract b owed)
    (hdata : w'.store.partition contract = w.store.partition contract) :
    Owes w' contract b owed where
  contract_eq := h.contract_eq
  wp_job := by
    rw [hdata]
    exact h.wp_job

private theorem work {c : Crew ρ} (h : Owes c.world contract b owed) (i : Nat) {rest : Tally}
    {committed : Nat} (hbooks : c.world.Books (rest + owed) committed) :
    ∃ b' debt, (c.work i b).workers = c.workers.set i b' ∧
      Owes (c.work i b).world contract b' debt ∧
      (c.work i b).world.Books (rest + debt) (committed + c.commits b) ∧
      ∀ other, other ≠ contract →
        (c.work i b).world.store.partition other = c.world.store.partition other := by
  have hkeeps : Desk.Keeps contract c.world.store rest committed (⟨c.world, b.tx⟩, 0)
      ⟨c.world.store.partition contract, b.tx, owed⟩ :=
    ⟨rfl, rfl, h.contract_eq, hbooks, fun _ _ => rfl⟩
  obtain ⟨⟨data, tx, debt⟩, ⟨rfl, rfl, htx, hnext, hother⟩, hwp⟩ :=
    step_of_wp (counting_obeys contract c.world.store rest committed) b.job hkeeps h.wp_job
  obtain ⟨hjob, hdesk⟩ := step_counting b.job ⟨c.world, b.tx⟩ 0
  rw [hdesk] at htx hnext hother hwp
  rw [hjob] at hwp
  exact ⟨_, debt, rfl, ⟨htx, hwp⟩, hnext, hother⟩

end Owes

/-- What all workers owe together is missing in the metrics, and what is stored for other contracts
is derived. -/
private structure Balanced (contracts : List ContractId) (c : Crew ρ) (committed : Nat) : Prop where
  length_eq : c.workers.length = contracts.length
  books : ∃ owed : Nat → Tally,
    c.world.Books (∑ i ∈ Finset.range contracts.length, owed i) committed ∧
    ∀ {i : Nat} {contract : ContractId} {b : Waiting MemoryStore (Option WorkerReport)},
      contracts[i]? = some contract → c.workers[i]? = some b → Owes c.world contract b (owed i)
  derived : ∀ contract, contract ∉ contracts → (c.world.store.partition contract).Derived contract

namespace Balanced

variable {contracts : List ContractId} {c : Crew ρ} {committed : Nat}

omit [EventSource ρ] in
private theorem start {w : World MemoryStore ρ} {config : Config} {rounds : Nat}
    (h : w.Balanced committed) :
    Balanced config.contractIds (.start w config rounds) committed where
  length_eq := List.length_map ..
  books := by
    refine ⟨0, by simpa [Crew.start] using h.books, ?_⟩
    intro i contract b hcontract hworker
    obtain rfl : ⟨Worker.run config contract rounds, none⟩ = b := by
      simpa [Crew.start, hcontract] using hworker
    exact ⟨by simp, Worker.settles_run config contract rounds _ _ (h.derived contract)⟩
  derived contract _ := h.derived contract

private theorem work (hnodup : contracts.Nodup) (h : Balanced contracts c committed) {i : Nat}
    {b : Waiting MemoryStore (Option WorkerReport)} (hworker : c.workers[i]? = some b) :
    Balanced contracts (c.work i b) (committed + c.commits b) := by
  have hi : i < c.workers.length := (List.getElem?_eq_some_iff.mp hworker).1
  obtain ⟨contract, hcontract⟩ : ∃ contract, contracts[i]? = some contract :=
    ⟨_, List.getElem?_eq_getElem (h.length_eq ▸ hi)⟩
  obtain ⟨owed, hbooks, howes⟩ := h.books
  -- What is owed is split into what this worker owes and the rest, which stays as it is.
  have hmem : i ∈ Finset.range contracts.length := Finset.mem_range.mpr (h.length_eq ▸ hi)
  rw [← Finset.sum_erase_add _ _ hmem] at hbooks
  obtain ⟨b', debt, hworkers, howes', hbooks', hother⟩ := (howes hcontract hworker).work i hbooks
  refine ⟨(List.length_set ..).trans h.length_eq, ⟨Function.update owed i debt, ?_, ?_⟩, ?_⟩
  · rw [Finset.sum_update_of_mem hmem, Finset.sdiff_singleton_eq_erase, add_comm]
    exact hbooks'
  · intro j contract' b'' hcontract' hworker'
    rw [hworkers] at hworker'
    by_cases hji : j = i
    · subst hji
      obtain rfl : contract = contract' := Option.some.inj (hcontract.symm.trans hcontract')
      obtain rfl : b' = b'' := by simpa [hi] using hworker'
      rw [Function.update_self]
      exact howes'
    · rw [List.getElem?_set_ne (Ne.symm hji)] at hworker'
      have hne : contract' ≠ contract := by
        rintro rfl
        exact hji ((List.getElem?_inj (List.getElem?_eq_some_iff.mp hcontract').1 hnodup).mp
          (hcontract'.trans hcontract.symm))
      rw [Function.update_of_ne hji]
      exact (howes hcontract' hworker').congr (hother contract' hne)
  · intro contract' hcontract'
    have hne : contract' ≠ contract := by
      rintro rfl
      exact hcontract' (List.mem_of_getElem? hcontract)
    rw [hother contract' hne]
    exact h.derived contract' hcontract'

private theorem works (hnodup : contracts.Nodup) {first : Crew ρ}
    (h : Balanced contracts first committed) {n : Nat} (hworks : Works first c n) :
    Balanced contracts c (committed + n) := by
  induction hworks with
  | start => exact h
  | work _ hworker ih =>
    rw [← Nat.add_assoc]
    exact ih.work hnodup hworker
  | @surroundings c n world _ hdata hmetrics ih =>
    have hpartition := MemoryStore.partition_congr hdata
    obtain ⟨owed, hbooks, howes⟩ := ih.books
    refine ⟨ih.length_eq, ⟨owed, hbooks.congr hdata (by rw [hmetrics]), ?_⟩, ?_⟩
    · intro i contract b hcontract hworker
      exact (howes hcontract hworker).congr (hpartition contract)
    · intro contract hcontract
      rw [hpartition]
      exact ih.derived contract hcontract

omit [EventSource ρ] in
private theorem ended (h : Balanced contracts c committed) {arrived : List (Option WorkerReport)}
    (hends : c.Ends arrived) : c.world.Balanced committed := by
  obtain ⟨owed, hbooks, howes⟩ := h.books
  have hdone {i : Nat} (hi : i < contracts.length) :
      (c.world.store.partition contracts[i]).Derived contracts[i] ∧ owed i = 0 := by
    have hworker := List.getElem?_eq_getElem (h.length_eq.symm ▸ hi : i < c.workers.length)
    obtain ⟨-, hwp⟩ := howes (List.getElem?_eq_getElem hi) hworker
    have hmem := hends.subset (List.mem_map_of_mem (List.mem_of_getElem? hworker))
    obtain ⟨a, -, ha⟩ := List.mem_map.mp hmem
    rw [← ha] at hwp
    exact ⟨hwp.1, hwp.2.1⟩
  refine ⟨?_, fun contract => ?_⟩
  · have hnothing : ∑ i ∈ Finset.range contracts.length, owed i = 0 :=
      Finset.sum_eq_zero fun i hi => (hdone (Finset.mem_range.mp hi)).2
    rwa [hnothing] at hbooks
  · by_cases hcontract : contract ∈ contracts
    · obtain ⟨i, hi, rfl⟩ := List.getElem_of_mem hcontract
      exact (hdone hi).1
    · exact h.derived contract hcontract

end Balanced

end Crew

/-! ## Calls that keep the books -/

namespace World

def commits {α : Type} (w : World MemoryStore ρ) (job : Job α) : Nat :=
  ((job.run Desk.counting).run (⟨w, none⟩, 0)).2.2

namespace Balanced

variable {w w' : World MemoryStore ρ} {committed : Nat}

omit [EventSource ρ] in
theorem start (hdata : w.store.partitions = ∅) (hmetrics : w.metrics = .zero) :
    w.Balanced 0 where
  books := ⟨0, hmetrics ▸ Metrics.shows_zero, .empty hdata⟩
  derived contract := by
    have hempty : w.store.partition contract = ∅ := by simp [MemoryStore.partition, hdata]
    rw [hempty]
    exact ⟨[], .empty contract⟩

omit [EventSource ρ] in
theorem congr (h : w.Balanced committed) (hdata : w'.store.partitions = w.store.partitions)
    (hread : w'.metrics.read = w.metrics.read) : w'.Balanced committed where
  books := h.books.congr hdata hread
  derived contract := by
    rw [MemoryStore.partition_congr hdata]
    exact h.derived contract

theorem process (h : w.Balanced committed) (policy : RetryPolicy) (contract : ContractId)
    (es : List RawEvent) :
    let job := Job.process policy contract es
    (w.perform job).2.Balanced (committed + w.commits job) := by
  intro job
  have hkeeps : Desk.Keeps contract w.store 0 committed (⟨w, none⟩, 0)
      ⟨w.store.partition contract, none, 0⟩ :=
    ⟨rfl, rfl, by simp, by simpa using h.books, fun _ _ => rfl⟩
  obtain ⟨⟨data, tx, owed⟩, ⟨rfl, -, -, hbooks, hother⟩, hderived, rfl, -⟩ :=
    run_of_wp (counting_obeys contract w.store 0 committed) job hkeeps
      (Job.settles_process policy contract es _ _ (h.derived contract))
  obtain ⟨-, hdesk⟩ := run_counting job ⟨w, none⟩ 0
  rw [hdesk] at hbooks hother hderived
  have hended : (w.perform job).2.Books (0 + 0) (committed + w.commits job) := hbooks
  rw [add_zero] at hended
  refine ⟨hended, fun other => ?_⟩
  by_cases hne : other = contract
  · subst hne
    exact hderived
  · have hsame : (w.perform job).2.store.partition other = w.store.partition other :=
      hother other hne
    rw [hsame]
    exact h.derived other

theorem rebuild (h : w.Balanced committed) (policy : RetryPolicy) (contract : ContractId) :
    (w.perform (Job.rebuild policy contract)).2.Balanced committed := by
  obtain ⟨retries, last, hdecided, hmetrics⟩ := w.perform_rebuild_after policy contract
  have hread : (w.perform (Job.rebuild policy contract)).2.metrics.read = w.metrics.read := by
    rw [hmetrics, hdecided.retried.metrics_eq, Metrics.read_recordRetries]
  cases hanswer : (w.perform (Job.rebuild policy contract)).1 with
  | error e => exact h.congr (hdecided.decidedBy.of_error hanswer) hread
  | ok report =>
    obtain ⟨es, hes⟩ := h.derived contract
    have hrebuilt := hdecided.decidedBy.rebuilt hes hanswer
    have hother (other : ContractId) (hne : other ≠ contract) :=
      MemoryStore.partition_eq_of_getElem? (hdecided.decidedBy.other_eq hne)
    refine ⟨?_, fun other => ?_⟩
    · have hbooks := h.books.commit (hrebuilt.accounts hes) hother hread
      simpa using hbooks
    · by_cases hne : other = contract
      · subst hne
        exact ⟨es, hrebuilt.holds⟩
      · rw [hother other hne]
        exact h.derived other

end Balanced

end World

namespace Indexer

/-- An indexer that began with an empty store has come to this state by calls, one after the other,
and so many batches were committed. The workers of a run may take their steps in any order. Between
the calls the surroundings may do anything but change committed data or metrics. -/
inductive Reached : World MemoryStore ρ → Nat → Prop
  | start {w : World MemoryStore ρ} (hdata : w.store.partitions = ∅)
    (hmetrics : w.metrics = .zero) : Reached w 0
  | process {w : World MemoryStore ρ} {n : Nat} (h : Reached w n) (policy : RetryPolicy)
    (contract : ContractId) (es : List RawEvent) :
    Reached (w.perform (Job.process policy contract es)).2
      (n + w.commits (Job.process policy contract es))
  | rebuild {w : World MemoryStore ρ} {n : Nat} (h : Reached w n) (policy : RetryPolicy)
    (contract : ContractId) : Reached (w.perform (Job.rebuild policy contract)).2 n
  | run {w : World MemoryStore ρ} {n k : Nat} {config : Config} {rounds : Nat} {c : Crew ρ}
    {arrived : List (Option WorkerReport)} (h : Reached w n) (hvalid : config.validate = .ok ())
    (hworks : (Crew.start w config rounds).Works c k) (hends : c.Ends arrived) :
    Reached c.world (n + k)
  | surroundings {w w' : World MemoryStore ρ} {n : Nat} (h : Reached w n)
    (hdata : w'.store.partitions = w.store.partitions) (hmetrics : w'.metrics = w.metrics) :
    Reached w' n

namespace Reached

variable {w : World MemoryStore ρ} {n : Nat}

/-- The indexer lets its workers take turns, which is one of the orders. -/
theorem ran (h : Reached w n) (config : Config) (rounds : Nat) :
    ∃ k, Reached ((Indexer.run Desk.handler config rounds).run w).2 (n + k) := by
  cases hvalid : config.validate with
  | error e =>
    refine ⟨0, h.surroundings ?_ ?_⟩ <;>
    · rw [Indexer.run, hvalid]
      rfl
  | ok =>
    obtain ⟨c, arrived, hsteps, hends, -, hstore, hmetrics⟩ :=
      Crew.reaches_run_metrics w hvalid rounds
    obtain ⟨k, hworks⟩ := Crew.Works.of_steps hsteps
    exact ⟨k, (h.run hvalid hworks hends).surroundings (congrArg _ hstore) hmetrics⟩

theorem balanced (h : Reached w n) : w.Balanced n := by
  induction h with
  | start hdata hmetrics => exact .start hdata hmetrics
  | process h policy contract es ih => exact ih.process policy contract es
  | rebuild h policy contract ih => exact ih.rebuild policy contract
  | run h hvalid hworks hends ih =>
    exact ((Crew.Balanced.start ih).works (Config.nodup_contractIds hvalid) hworks).ended hends
  | surroundings h hdata hmetrics ih => exact ih.congr hdata (congrArg _ hmetrics)

/-- Whatever the calls were, the metrics reconcile with the store: but for wrapping, they count the
entries of all logs, those that could not be decoded, the frozen entities and the committed batches.
As long as the events that were indexed can be counted, they are at least those that were written,
not decoded or refused. A rebuild and a call that fails count nothing but retries, and a batch is
counted once, however many attempts it took. -/
theorem reconciled (h : Reached w n) :
    let m := w.metrics
    let entries := w.store.total fun p => p.entries.length
    m.eventsIndexed = .ofNat entries ∧
    m.decodeFailures =
      .ofNat (w.store.total fun p => p.entries.countP (·.decodeError.isSome)) ∧
    m.integrityErrors + m.invalidTransitions =
      .ofNat (w.store.total fun p => p.tables.quarantined.size) ∧
    m.batchesCommitted = .ofNat n ∧
    (entries < UInt64.size →
      m.eventsProjected.toNat + m.decodeFailures.toNat + m.integrityErrors.toNat +
        m.invalidTransitions.toNat + m.quarantinedEvents.toNat ≤ m.eventsIndexed.toNat) ∧
    (∀ policy contract, ∃ retries,
      (w.perform (Job.rebuild policy contract)).2.metrics = m.recordRetries retries) ∧
    ∀ policy contract es, ∃ retries,
      let called := w.perform (Job.process policy contract es)
      (∀ e, called.1 = .error e → called.2.store.partitions = w.store.partitions ∧
        called.2.metrics = m.recordRetries retries) ∧
      ∀ report, called.1 = .ok report →
        ∃ nanos, called.2.metrics = (m.recordRetries retries).recordBatch report nanos := by
  intro m entries
  obtain ⟨t, hshows, hmatches⟩ := h.balanced.books
  rw [add_zero] at hmatches
  obtain ⟨hentries, hfailures, hfrozen, hbatches, hsettled⟩ := hmatches
  have hread (c : Count) : m.read c = .ofNat (t c) := hshows c
  refine ⟨?_, ?_, ?_, ?_, ?_, ?_, ?_⟩
  · exact (hread .indexed).trans (congrArg _ hentries.symm)
  · exact (hread .undecoded).trans (congrArg _ hfailures.symm)
  · have hrefused : m.integrityErrors + m.invalidTransitions = .ofNat t.refused := by
      rw [Tally.refused, UInt64.ofNat_add, ← hread, ← hread]
      rfl
    exact hrefused.trans (congrArg _ hfrozen.symm)
  · rw [hbatches]
    exact hread .batches
  · intro hlt
    have hindexed : t .indexed < UInt64.size := hentries ▸ hlt
    have htoNat {c : Count} (hc : t c ≤ t .indexed) : (m.read c).toNat = t c := by
      rw [hread, UInt64.toNat_ofNat_of_lt' (hc.trans_lt hindexed)]
    rw [Tally.settled, Tally.refused] at hsettled
    have hwritten := htoNat (c := .written) (by omega)
    have hundecoded := htoNat (c := .undecoded) (by omega)
    have hintegrity := htoNat (c := .integrity) (by omega)
    have hinvalid := htoNat (c := .invalid) (by omega)
    have hquarantined := htoNat (c := .quarantined) (by omega)
    have hcounted := htoNat (c := .indexed) le_rfl
    simp only [Metrics.read] at hwritten hundecoded hintegrity hinvalid hquarantined hcounted
    omega
  · intro policy contract
    obtain ⟨retries, last, hdecided, hmetrics⟩ := w.perform_rebuild_after policy contract
    exact ⟨retries, hmetrics.trans hdecided.retried.metrics_eq⟩
  · intro policy contract es
    obtain ⟨retries, last, hdecided, herror, hok⟩ := w.perform_process_after policy contract es
    have hlast : last.metrics = m.recordRetries retries := hdecided.retried.metrics_eq
    rw [hlast] at herror hok
    exact ⟨retries, fun e he => ⟨hdecided.decidedBy.of_error he, herror e he⟩, hok⟩

/-- A batch is retried, delivered again in part, and rebuilt; an event of another contract is
refused, and then indexed by a worker. -/
theorem reconciled_after_calls :
    let contract : ContractId := ⟨"C"⟩
    let event (contract : ContractId) (topic : String) (payload : Json) (ledger : UInt32) :
      RawEvent := ⟨contract, topic, payload, ledger, .epoch, .replicate 0, 0⟩
    let cancelled : Json := .object [("cancelled_at", .number "2"), ("cancelled_by", .string "A"),
      ("proposal_id", .number "7")]
    let garbled : RawEvent := event contract "REWARD_ADDED" .null 1
    let batch : List RawEvent := [garbled, event contract "PROPOSAL_CANCELLED" cancelled 2,
      event contract "PROPOSAL_CANCELLED" cancelled 3]
    let foreign : RawEvent := event ⟨"D"⟩ "NOTE" .null 1
    let policy : RetryPolicy := ⟨3, 100, 2.0, 1000⟩
    let config : Config := { Config.default with contracts := ["D"], stopWhenCaughtUp := true }
    let first : World MemoryStore MemorySource :=
      .start (MemoryStore.empty.failCommits 1) (.ofEvents [foreign])
    let process (w : World MemoryStore MemorySource) (es : List RawEvent) :=
      (w.perform (Job.process policy contract es)).2
    let processed := process (process (process first batch) [garbled]) [foreign]
    let rebuilt := (processed.perform (Job.rebuild policy contract)).2
    let w := ((Indexer.run Desk.handler config 3).run rebuilt).2
    ∃ n, Reached w n ∧ w.metrics.eventsIndexed = 4 ∧ w.metrics.decodeFailures = 1 ∧
      w.metrics.integrityErrors + w.metrics.invalidTransitions = 1 ∧
      w.metrics.batchesCommitted = .ofNat n ∧
      w.metrics.eventsProjected.toNat + w.metrics.decodeFailures.toNat +
        w.metrics.integrityErrors.toNat + w.metrics.invalidTransitions.toNat +
        w.metrics.quarantinedEvents.toNat ≤ w.metrics.eventsIndexed.toNat := by
  intro contract event cancelled garbled batch foreign policy config first process processed
    rebuilt w
  have hfirst : Reached first 0 := .start rfl rfl
  have hbatch := hfirst.process policy contract batch
  have hprocessed := (hbatch.process policy contract [garbled]).process policy contract [foreign]
  obtain ⟨k, hran⟩ := (hprocessed.rebuild policy contract).ran config 3
  have hentries : (w.store.total fun p => p.entries.length) = 4 := by decide +kernel
  have hfailures : (w.store.total fun p => p.entries.countP (·.decodeError.isSome)) = 1 := by
    decide +kernel
  have hfrozen : (w.store.total fun p => p.tables.quarantined.size) = 1 := by decide +kernel
  obtain ⟨hindexed, hundecoded, hrefused, hbatches, hcovers, -⟩ := hran.reconciled
  refine ⟨_, hran, hindexed.trans (congrArg _ hentries), hundecoded.trans (congrArg _ hfailures),
    hrefused.trans (congrArg _ hfrozen), hbatches, hcovers ?_⟩
  exact hentries.trans_lt (by decide)

end Reached

end Indexer

end EventIndex
