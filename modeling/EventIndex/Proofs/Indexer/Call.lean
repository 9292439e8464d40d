import EventIndex.Proofs.Indexer.Attempt
import EventIndex.Proofs.Retry.Trials

/-! # Calls and their attempts

A call makes attempts, each in a transaction of its own. An attempt that fails has changed no data,
so that the last attempt decides what the call gives and what it does to the data. -/

namespace EventIndex

namespace Metrics

variable (m : Metrics)

def recordRetries (n : Nat) : Metrics :=
  { m with transientRetries := m.transientRetries + .ofNat n }

theorem recordRetries_zero : m.recordRetries 0 = m := by
  simp [recordRetries]

theorem recordRetries_recordRetry (n : Nat) :
    m.recordRetry.recordRetries n = m.recordRetries (n + 1) := by
  have hcount : m.transientRetries + 1 + UInt64.ofNat n = m.transientRetries + .ofNat (n + 1) := by
    rw [UInt64.ofNat_add, UInt64.add_comm (.ofNat n), UInt64.add_assoc]
    rfl
  simp only [recordRetries, recordRetry, hcount]

end Metrics

namespace World

variable {ρ α : Type} [EventSource ρ]

/-- An attempt does not see what transaction was open before. -/
theorem run_transact_eq (contract : ContractId) (b : Batch α) (d : Desk MemoryStore ρ) :
    ((Job.transact contract b).run Desk.handler).run d =
      ((Job.transact contract b).run Desk.handler).run ⟨d.world, none⟩ := by
  rw [Job.transact_eq, Program.run_bind_run, Program.run_bind_run]
  rfl

private theorem run_transact (contract : ContractId) (b : Batch α) (d : Desk MemoryStore ρ) :
    ∃ tx, ((Job.transact contract b).run Desk.handler).run d =
      ((d.world.transact contract b).1, ⟨(d.world.transact contract b).2, tx⟩) :=
  ⟨_, run_transact_eq contract b d⟩

/-- Between two attempts the retry is counted and the store is left alone. -/
private theorem run_between (policy : RetryPolicy) (retry : Nat) (e : IndexerError) (next : Job α)
    (d : Desk MemoryStore ρ) :
    ∃ d' : Desk MemoryStore ρ, d'.world.store = d.world.store ∧
      d'.world.metrics = d.world.metrics.recordRetry ∧
      ((do
        Program.write (policy.retryLine retry e)
        Job.perform .recordRetry
        Program.wait (policy.backoff retry)
        next : Job α).run Desk.handler).run d = (next.run Desk.handler).run d' := by
  rw [Program.run_bind_run, Program.run_bind_run, Program.run_bind_run]
  refine ⟨_, ?_, ?_, rfl⟩
  · rfl
  · rfl

/-! ## Attempts made anew -/

/-- So many attempts at the batch have failed one after the other from `w` on, each with an error
that may pass, and the next attempt finds `last`. -/
inductive Retried (contract : ContractId) (b : Batch α) :
    World MemoryStore ρ → Nat → World MemoryStore ρ → Prop
  | first (w : World MemoryStore ρ) : Retried contract b w 0 w
  | again {w next last : World MemoryStore ρ} {retries : Nat} {e : IndexerError}
      (he : (w.transact contract b).1 = .error e) (hretriable : e.isRetriable)
      (hstore : next.store = (w.transact contract b).2.store)
      (hmetrics : next.metrics = w.metrics.recordRetry) (h : Retried contract b next retries last) :
      Retried contract b w (retries + 1) last

namespace Retried

variable {w last : World MemoryStore ρ} {contract : ContractId} {b : Batch α} {retries : Nat}

theorem partitions_eq (h : Retried contract b w retries last) :
    last.store.partitions = w.store.partitions := by
  induction h with
  | first w => rfl
  | again he hretriable hstore hmetrics h ih => rw [ih, hstore, transact_error he]

theorem metrics_eq (h : Retried contract b w retries last) :
    last.metrics = w.metrics.recordRetries retries := by
  induction h with
  | first w => exact (Metrics.recordRetries_zero _).symm
  | again he hretriable hstore hmetrics h ih =>
    rw [ih, hmetrics, Metrics.recordRetries_recordRetry]

/-- Each retry has used up a refusal, if nothing else makes an attempt fail. -/
theorem commitFailures_eq (h : Retried contract b w retries last)
    (hcommits : w.Commits contract b) :
    last.store.commitFailures + retries = w.store.commitFailures := by
  induction h with
  | first w => rfl
  | @again w next last retries e he hretriable hstore hmetrics h ih =>
    have hnext := ih (hcommits.congr (by rw [hstore, transact_error he]))
    rw [(hcommits w e rfl he).2, ← hstore]
    omega

theorem eq_of_not_retriable (h : Retried contract b w retries last) {e : IndexerError}
    (he : (w.transact contract b).1 = .error e) (hretriable : e.isRetriable = false) :
    retries = 0 ∧ last = w := by
  cases h with
  | first w => exact ⟨rfl, rfl⟩
  | again he' hretriable' =>
    obtain rfl := Except.error.inj (he'.symm.trans he)
    rw [hretriable] at hretriable'
    cases hretriable'

end Retried

/-- Of the attempts at a batch the last one decides. If it fails with an error that may pass, no
retries were left. -/
private theorem run_attempt (policy : RetryPolicy) (contract : ContractId) (b : Batch α)
    (retry left : Nat) (d : Desk MemoryStore ρ) :
    let ended := ((policy.attempt (Job.transact contract b)
      (fun _ _ => Job.perform .recordRetry) retry left).run Desk.handler).run d
    ∃ retries last, Retried contract b d.world retries last ∧ retries ≤ left ∧
      ended.1 = (last.transact contract b).1.mapError (⟨retry + retries + 1, ·⟩) ∧
      ended.2.world.store = (last.transact contract b).2.store ∧
      ended.2.world.metrics = last.metrics ∧
      ∀ e, (last.transact contract b).1 = .error e → e.isRetriable → retries = left := by
  induction left generalizing retry d with
  | zero =>
    obtain ⟨tx, htransact⟩ := run_transact contract b d
    rw [policy.run_attempt_last htransact fun _ => rfl]
    exact ⟨0, d.world, .first d.world, le_rfl, rfl, rfl, metrics_transact _ _ _, fun _ _ _ => rfl⟩
  | succ left ih =>
    obtain ⟨tx, htransact⟩ := run_transact contract b d
    have hmetrics := d.world.metrics_transact contract b
    by_cases hpasses : MayPass (d.world.transact contract b).1
    · obtain ⟨e, hattempt, hretriable⟩ := hpasses
      obtain ⟨next, hstore, hcounted, hrun⟩ := run_between policy retry e
        (policy.attempt (Job.transact contract b) (fun _ _ => Job.perform .recordRetry)
          (retry + 1) left) ⟨(d.world.transact contract b).2, tx⟩
      rw [hattempt] at htransact
      rw [policy.run_attempt_again htransact hretriable, hrun]
      obtain ⟨retries, last, hretried, hleft, hanswer, hends⟩ := ih (retry + 1) next
      rw [hmetrics] at hcounted
      refine ⟨retries + 1, last, .again hattempt hretriable hstore hcounted hretried,
        Nat.succ_le_succ hleft, ?_, hends.1, hends.2.1, fun e he hr => ?_⟩
      · rw [hanswer, Nat.add_right_comm retry 1 retries, Nat.add_assoc retry retries 1]
      · rw [hends.2.2 e he hr]
    · rw [policy.run_attempt_last htransact fun h => absurd h hpasses]
      exact ⟨0, d.world, .first d.world, Nat.zero_le _, rfl, rfl, hmetrics,
        fun e he hr => absurd ⟨e, he, hr⟩ hpasses⟩

/-! ## Calls -/

/-- The last attempt at the batch found the data as they were in `w`. It decides the answer of the
call and the store after it. -/
structure DecidedBy (last : World MemoryStore ρ) (contract : ContractId) (b : Batch α)
    (w : World MemoryStore ρ) (answer : Except IndexerError α) (store : MemoryStore) : Prop where
  partitions_eq : last.store.partitions = w.store.partitions
  answer_iff : ∀ a, answer = .ok a ↔ (last.transact contract b).1 = .ok a
  store_eq : store = (last.transact contract b).2.store

namespace DecidedBy

variable {w last : World MemoryStore ρ} {contract : ContractId} {b : Batch α}
  {answer : Except IndexerError α} {store : MemoryStore}

theorem partition_eq (h : last.DecidedBy contract b w answer store) (c : ContractId) :
    last.store.partition c = w.store.partition c :=
  MemoryStore.partition_congr h.partitions_eq c

theorem other_eq (h : last.DecidedBy contract b w answer store) {other : ContractId}
    (hother : other ≠ contract) : store.partitions[other]? = w.store.partitions[other]? := by
  rw [h.store_eq, transact_other b hother, h.partitions_eq]

theorem of_error (h : last.DecidedBy contract b w answer store) {e : IndexerError}
    (he : answer = .error e) : store.partitions = w.store.partitions := by
  cases hlast : (last.transact contract b).1 with
  | ok a => cases he.symm.trans ((h.answer_iff a).mpr hlast)
  | error e => rw [h.store_eq, transact_error hlast, h.partitions_eq]

section Reports

variable {es fs : List RawEvent} {answer : Except IndexerError BatchReport}
  {report : BatchReport}

theorem processed (h : last.DecidedBy contract (Batch.process contract fs) w answer store)
    (hes : (w.store.partition contract).Holds contract es) (hanswer : answer = .ok report) :
    Processed contract es fs (w.store.partition contract) report (store.partition contract) := by
  rw [← h.partition_eq] at hes ⊢
  rw [h.store_eq]
  exact transact_process_ok hes ((h.answer_iff report).mp hanswer)

theorem rebuilt (h : last.DecidedBy contract (Batch.rebuild contract) w answer store)
    (hes : (w.store.partition contract).Holds contract es) (hanswer : answer = .ok report) :
    Rebuilt contract es (w.store.partition contract) report (store.partition contract) := by
  rw [← h.partition_eq] at hes ⊢
  rw [h.store_eq]
  exact transact_rebuild_ok hes ((h.answer_iff report).mp hanswer)

end Reports

end DecidedBy

private theorem perform_eq (w : World MemoryStore ρ) (p : Job α) :
    w.perform p =
      (((p.run Desk.handler).run ⟨w, none⟩).1, ((p.run Desk.handler).run ⟨w, none⟩).2.world) := rfl

/-- A call has ended as its last attempt did, which came after so many retries. If an error was left
that may pass, these were all the retries there may be. -/
structure DecidedAfter (retries : Nat) (last : World MemoryStore ρ) (limit : Nat)
    (contract : ContractId) (b : Batch α) (w : World MemoryStore ρ)
    (answer : Except IndexerError α) (store : MemoryStore) : Prop where
  retried : Retried contract b w retries last
  retries_le : retries ≤ limit
  answer_eq : answer =
    (last.transact contract b).1.mapError fun e => .ofFailure contract ⟨retries + 1, e⟩
  store_eq : store = (last.transact contract b).2.store
  exhausted : ∀ e, (last.transact contract b).1 = .error e → e.isRetriable → retries = limit

namespace DecidedAfter

variable {w last : World MemoryStore ρ} {contract : ContractId} {b : Batch α}
  {retries limit : Nat} {answer : Except IndexerError α} {store : MemoryStore}

theorem decidedBy (h : last.DecidedAfter retries limit contract b w answer store) :
    last.DecidedBy contract b w answer store where
  partitions_eq := h.retried.partitions_eq
  answer_iff a := by
    rw [h.answer_eq]
    cases (last.transact contract b).1 <;> simp [Except.mapError]
  store_eq := h.store_eq

/-- A call succeeds if nothing but refused commits makes an attempt fail, and there are not too many
of these. -/
theorem exists_ok (h : last.DecidedAfter retries limit contract b w answer store)
    (hcommits : w.Commits contract b) (hlimit : w.store.commitFailures ≤ limit) :
    ∃ a, answer = .ok a := by
  cases hlast : (last.transact contract b).1 with
  | ok a => exact ⟨a, (h.decidedBy.answer_iff a).mpr hlast⟩
  | error e =>
    obtain ⟨rfl, hrefused⟩ := hcommits last e h.retried.partitions_eq hlast
    have hretries := h.exhausted _ hlast rfl
    have hcount := h.retried.commitFailures_eq hcommits
    omega

end DecidedAfter

private theorem perform_retrying (w : World MemoryStore ρ) (policy : RetryPolicy)
    (contract : ContractId) (b : Batch α) :
    let ended := w.perform (Job.retrying policy contract (Job.transact contract b))
    ∃ retries last,
      DecidedAfter retries last policy.maxRetries.toNat contract b w ended.1 ended.2.store ∧
      ended.2.metrics = last.metrics := by
  obtain ⟨retries, last, hretried, hle, hanswer, hstore, hmetrics, hexhausted⟩ :=
    run_attempt policy contract b 0 policy.maxRetries.toNat ⟨w, none⟩
  rw [perform_eq, Job.retrying, Program.run_bind_run, RetryPolicy.run]
  generalize ((policy.attempt (Job.transact contract b) (fun _ _ => Job.perform .recordRetry) 0
    policy.maxRetries.toNat).run Desk.handler).run ⟨w, none⟩ = ended at hanswer hstore hmetrics ⊢
  obtain ⟨r, d⟩ := ended
  refine ⟨retries, last, ⟨hretried, hle, ?_, hstore, hexhausted⟩, hmetrics⟩
  change r.mapError (IndexerError.ofFailure contract) = _
  rw [show r = _ from hanswer, Nat.zero_add]
  cases (last.transact contract b).1 <;> rfl

/-- A call of a batch ends as one of its attempts. Only if it succeeds, the batch is counted. -/
theorem perform_process_after (w : World MemoryStore ρ) (policy : RetryPolicy)
    (contract : ContractId) (es : List RawEvent) :
    let b := Batch.process contract es
    let called := w.perform (Job.process policy contract es)
    ∃ retries last, DecidedAfter retries last policy.maxRetries.toNat contract b
        { w with looks := w.looks + 1 } called.1 called.2.store ∧
      (∀ e, called.1 = .error e → called.2.metrics = last.metrics) ∧
      ∀ report, called.1 = .ok report →
        ∃ nanos, called.2.metrics = last.metrics.recordBatch report nanos := by
  intro b called
  -- The clock is looked at before the first attempt.
  let looked : World MemoryStore ρ := { w with looks := w.looks + 1 }
  have hclock : ((Program.clock : Job Timestamp).run Desk.handler).run
      (⟨w, none⟩ : Desk MemoryStore ρ) = (w.times w.looks, ⟨looked, none⟩) := rfl
  obtain ⟨retries, last, hdecided, hmetrics⟩ := looked.perform_retrying policy contract b
  let retried := looked.perform (Job.retrying policy contract (Job.transact contract b))
  have hcalled : called.1 = retried.1 ∧ called.2.store = retried.2.store ∧
      (∀ e, called.1 = .error e → called.2.metrics = retried.2.metrics) ∧
      ∀ report, called.1 = .ok report →
        ∃ nanos, called.2.metrics = retried.2.metrics.recordBatch report nanos := by
    simp only [called, retried, perform_eq, Job.process, Program.run_bind_run, hclock]
    generalize ((Job.retrying policy contract (Job.transact contract b)).run
      Desk.handler).run ⟨looked, none⟩ = ended
    obtain ⟨e | report, d⟩ := ended
    · refine ⟨rfl, rfl, fun _ _ => rfl, ?_⟩
      rintro report ⟨⟩
    · dsimp only
      cases report.line <;>
      · refine ⟨rfl, rfl, ?_, ?_⟩
        · rintro e ⟨⟩
        · rintro report ⟨⟩
          exact ⟨_, rfl⟩
  obtain ⟨hanswer, hstore, herror, hok⟩ := hcalled
  rw [show retried.2.metrics = last.metrics from hmetrics] at herror hok
  rw [hanswer, hstore] at *
  exact ⟨retries, last, hdecided, herror, hok⟩

theorem perform_process (w : World MemoryStore ρ) (policy : RetryPolicy) (contract : ContractId)
    (es : List RawEvent) :
    let b := Batch.process contract es
    let called := w.perform (Job.process policy contract es)
    ∃ last, DecidedBy last contract b w called.1 called.2.store ∧
      (w.Commits contract b → w.store.commitFailures ≤ policy.maxRetries.toNat →
        ∃ report, called.1 = .ok report) := by
  intro b called
  obtain ⟨retries, last, hdecided, -⟩ := w.perform_process_after policy contract es
  obtain ⟨hdata, hanswer, hstore⟩ := hdecided.decidedBy
  exact ⟨last, ⟨hdata, hanswer, hstore⟩, fun hcommits => hdecided.exists_ok (hcommits.congr rfl)⟩

/-- A call of a rebuild ends as one of its attempts, and nothing is counted but the retries. -/
theorem perform_rebuild_after (w : World MemoryStore ρ) (policy : RetryPolicy)
    (contract : ContractId) :
    let b := Batch.rebuild contract
    let called := w.perform (Job.rebuild policy contract)
    ∃ retries last,
      DecidedAfter retries last policy.maxRetries.toNat contract b w called.1 called.2.store ∧
      called.2.metrics = last.metrics := by
  intro b called
  let retried := w.perform (Job.retrying policy contract (Job.transact contract b))
  have hcalled : called.1 = retried.1 ∧ called.2.store = retried.2.store ∧
      called.2.metrics = retried.2.metrics := by
    simp only [called, retried, perform_eq, Job.rebuild, Program.run_bind_run]
    generalize ((Job.retrying policy contract (Job.transact contract b)).run
      Desk.handler).run ⟨w, none⟩ = ended
    obtain ⟨e | report, d⟩ := ended <;> exact ⟨rfl, rfl, rfl⟩
  obtain ⟨hanswer, hstore, hmetrics⟩ := hcalled
  rw [hanswer, hstore, hmetrics]
  exact w.perform_retrying policy contract b

theorem perform_rebuild (w : World MemoryStore ρ) (policy : RetryPolicy) (contract : ContractId) :
    let b := Batch.rebuild contract
    let called := w.perform (Job.rebuild policy contract)
    ∃ last, DecidedBy last contract b w called.1 called.2.store ∧
      (w.Commits contract b → w.store.commitFailures ≤ policy.maxRetries.toNat →
        ∃ report, called.1 = .ok report) := by
  intro b called
  obtain ⟨retries, last, hdecided, -⟩ := w.perform_rebuild_after policy contract
  exact ⟨last, hdecided.decidedBy, hdecided.exists_ok⟩

end World

end EventIndex
