import EventIndex.Proofs.Metrics.Tally
import EventIndex.Proofs.Worker.Retrying
import EventIndex.Proofs.Indexer.Transaction
import Mathlib.Algebra.BigOperators.Group.Finset.Basic

/-! # The books of an indexer

The metrics are kept beside the store: a worker counts a batch after its commit, so that for a
moment it owes what it has committed. What has been counted and what is owed are together what the
store holds. -/

namespace EventIndex

open Program

/-! ## All contracts together -/

namespace MemoryStore

/-- What `f` gives for the contracts, all together. -/
def total (s : MemoryStore) (f : Partition → Nat) : Nat :=
  (s.contracts.map fun contract => f (s.partition contract)).sum

variable {f : Partition → Nat} {s s' : MemoryStore}

theorem total_eq_sum (hf : f ∅ = 0) (all : Finset ContractId) (h : ∀ c ∈ s.contracts, c ∈ all) :
    s.total f = ∑ c ∈ all, f (s.partition c) := by
  have hnodup : s.contracts.Nodup := Std.ExtTreeMap.nodup_keys
  rw [total, ← List.sum_toFinset _ hnodup]
  refine Finset.sum_subset (fun c hc => h c (List.mem_toFinset.mp hc)) fun c _ hc => ?_
  have hfree : c ∉ s.partitions := by
    rwa [List.mem_toFinset, contracts, Std.ExtTreeMap.mem_keys] at hc
  rw [partition, Std.ExtTreeMap.getD_eq_fallback hfree, hf]

theorem total_of_other (hf : f ∅ = 0) {contract : ContractId}
    (hother : ∀ other, other ≠ contract → s'.partition other = s.partition other) :
    s'.total f + f (s.partition contract) = s.total f + f (s'.partition contract) := by
  let all : Finset ContractId := insert contract (s.contracts ++ s'.contracts).toFinset
  have hmem : contract ∈ all := Finset.mem_insert_self ..
  have hrest : ∑ c ∈ all.erase contract, f (s'.partition c) =
      ∑ c ∈ all.erase contract, f (s.partition c) :=
    Finset.sum_congr rfl fun c hc => congrArg f (hother c (Finset.ne_of_mem_erase hc))
  rw [total_eq_sum (s := s) hf all (by simp +contextual [all]),
    total_eq_sum (s := s') hf all (by simp +contextual [all]),
    ← Finset.sum_erase_add _ _ hmem, ← Finset.sum_erase_add _ _ hmem, hrest]
  omega

end MemoryStore

/-! ## Counts and stores -/

/-- The counts are what the store holds when so many batches have been committed. -/
structure Tally.Matches (t : Tally) (s : MemoryStore) (committed : Nat) : Prop where
  entries_eq : s.total (·.entries.length) = t .indexed
  failures_eq : s.total Partition.failures = t .undecoded
  frozen_eq : s.total Partition.frozen = t.refused
  batches_eq : committed = t .batches
  settled_le : t.settled ≤ t .indexed

namespace Tally.Matches

variable {t : Tally} {s s' : MemoryStore} {committed : Nat}

theorem empty (h : s.partitions = ∅) : Matches 0 s 0 := by
  have htotal (f : Partition → Nat) : s.total f = 0 := by
    rw [MemoryStore.total, MemoryStore.contracts, h]
    rfl
  exact ⟨htotal _, htotal _, htotal _, rfl, le_rfl⟩

theorem congr (h : t.Matches s committed) (hdata : s'.partitions = s.partitions) :
    t.Matches s' committed := by
  have htotal (f : Partition → Nat) : s'.total f = s.total f := by
    simp only [MemoryStore.total, MemoryStore.contracts, MemoryStore.partition, hdata]
  obtain ⟨hentries, hfailures, hfrozen, hbatches, hsettled⟩ := h
  exact ⟨(htotal _).trans hentries, (htotal _).trans hfailures, (htotal _).trans hfrozen,
    hbatches, hsettled⟩

theorem add (h : t.Matches s committed) {d : Tally} {contract : ContractId}
    (hd : d.Accounts (s.partition contract) (s'.partition contract))
    (hother : ∀ other, other ≠ contract → s'.partition other = s.partition other) :
    (t + d).Matches s' (committed + d .batches) := by
  have htotal {f : Partition → Nat} (hf : f ∅ = 0) :=
    MemoryStore.total_of_other (f := f) hf hother
  obtain ⟨hentries, hfailures, hfrozen, hbatches, hsettled⟩ := h
  refine ⟨?_, ?_, ?_, ?_, ?_⟩
  · have hchange := htotal (f := (·.entries.length)) rfl
    rw [hd.entries_eq, hentries] at hchange
    rw [Pi.add_apply]
    omega
  · have hchange := htotal (f := Partition.failures) rfl
    rw [hd.failures_eq, hfailures] at hchange
    rw [Pi.add_apply]
    omega
  · have hchange := htotal (f := Partition.frozen) rfl
    rw [hd.frozen_eq, hfrozen] at hchange
    rw [refused_add]
    omega
  · rw [hbatches, Pi.add_apply]
  · rw [settled_add, Pi.add_apply]
    exact Nat.add_le_add hsettled hd.settled_le

end Tally.Matches

/-- What the metrics show and what is still owed to them are together what the store holds when so
many batches have been committed. -/
def World.Books {ρ : Type} (w : World MemoryStore ρ) (owed : Tally) (committed : Nat) : Prop :=
  ∃ t : Tally, w.metrics.Shows t ∧ (t + owed).Matches w.store committed

namespace World.Books

variable {ρ : Type} {w w' : World MemoryStore ρ} {owed : Tally} {committed : Nat}

theorem congr (h : w.Books owed committed) (hdata : w'.store.partitions = w.store.partitions)
    (hread : w'.metrics.read = w.metrics.read) : w'.Books owed committed := by
  obtain ⟨t, hshows, hmatches⟩ := h
  exact ⟨t, hshows.congr hread, hmatches.congr hdata⟩

/-- What is committed is owed. -/
theorem commit (h : w.Books owed committed) {d : Tally} {contract : ContractId}
    (hd : d.Accounts (w.store.partition contract) (w'.store.partition contract))
    (hother : ∀ other, other ≠ contract → w'.store.partition other = w.store.partition other)
    (hread : w'.metrics.read = w.metrics.read) :
    w'.Books (owed + d) (committed + d .batches) := by
  obtain ⟨t, hshows, hmatches⟩ := h
  refine ⟨t, hshows.congr hread, ?_⟩
  rw [← add_assoc]
  exact hmatches.add hd hother

/-- What is counted is owed no longer. -/
theorem recordBatch {r : BatchReport} (h : w.Books (owed + r.tally) committed) (nanos : Nat) :
    { w with metrics := w.metrics.recordBatch r nanos }.Books owed committed := by
  obtain ⟨t, hshows, hmatches⟩ := h
  refine ⟨t + r.tally, hshows.recordBatch r nanos, ?_⟩
  rwa [add_assoc, add_comm r.tally owed]

end World.Books

/-! ## Keeping the books -/

/-- The committed data of a contract, its open transaction, and what has been committed for it but
not yet been counted. -/
structure Balance where
  data : Partition
  tx : Option WriteSet
  owed : Tally

/-- What must hold before an effect for the books to be kept. What is committed is accounted for,
and a batch is counted when just its counts are owed. -/
def Effect.booked (contract : ContractId) : Rule Effect.signature Balance
  | .query .., Q, b => ∀ a, Q a b
  | .fetch .., Q, b => ∀ a, Q a b
  | .start c, Q, b => c = contract ∧ Q (.ok ()) { b with tx := some (.start contract) }
  | .request _, Q, ⟨p, none, owed⟩ => Q (.error Desk.withoutTransaction) ⟨p, none, owed⟩
  | .request r, Q, ⟨p, some w, owed⟩ => Q (w.request p r).1 ⟨p, some (w.request p r).2, owed⟩
  | .commit, Q, ⟨p, none, owed⟩ => Q (.error Desk.withoutTransaction) ⟨p, none, owed⟩
  | .commit, Q, ⟨p, some w, owed⟩ =>
    Q (.error .commitRefused) ⟨p, none, owed⟩ ∧
      ∃ d : Tally, d .batches = 1 ∧ d.Accounts p (w.mergeInto p) ∧
        Q (.ok ()) ⟨w.mergeInto p, none, owed + d⟩
  | .abandon, Q, b => Q () { b with tx := none }
  | .stopRequested, Q, b => ∀ stop, Q stop b
  | .recordBatch report _, Q, b => b.owed = report.tally ∧ Q () { b with owed := 0 }
  | .recordRetry, Q, b => Q () b

theorem Effect.booked_mono (contract : ContractId) : (Effect.booked contract).Mono := by
  rintro op Q Q' ⟨p, tx, owed⟩ hQ hrule
  cases op with
  | query | fetch | stopRequested => exact fun a => hQ _ _ (hrule a)
  | start | recordBatch => exact ⟨hrule.1, hQ _ _ hrule.2⟩
  | request => cases tx <;> exact hQ _ _ hrule
  | commit =>
    cases tx with
    | none => exact hQ _ _ hrule
    | some w =>
      obtain ⟨hrefused, d, hbatches, hd, hcommitted⟩ := hrule
      exact ⟨hQ _ _ hrefused, d, hbatches, hd, hQ _ _ hcommitted⟩
  | abandon | recordRetry => exact hQ _ _ hrule

/-! ## What the jobs owe -/

namespace Job

variable {α β : Type} {contract : ContractId}

/-- The job begins and ends with derived data and owes nothing, and `R` holds of its result. -/
def Settles (contract : ContractId) (R : α → Prop) (job : Job α) : Prop :=
  ∀ p tx, p.Derived contract → job.wp (Effect.booked contract)
    (fun a b => b.data.Derived contract ∧ b.owed = 0 ∧ R a) (Balance.mk p tx 0)

namespace Settles

theorem pure {R : α → Prop} {a : α} (h : R a) : (Pure.pure a : Job α).Settles contract R :=
  fun _ _ hp => ⟨hp, rfl, h⟩

theorem bind {job : Job α} {next : α → Job β} {R : α → Prop} {R' : β → Prop}
    (h : job.Settles contract R) (hnext : ∀ a, R a → (next a).Settles contract R') :
    (job >>= next).Settles contract R' := by
  intro p tx hp
  rw [wp_bind]
  refine wp_mono (Effect.booked_mono contract) job ?_ (h p tx hp)
  rintro a ⟨p', tx', owed⟩ ⟨hp', rfl, ha⟩
  exact hnext a ha p' tx' hp'

theorem write (line : Line) : Settles contract (fun _ => True) (Program.write line) :=
  fun _ _ hp => ⟨hp, rfl, trivial⟩

theorem wait (ms : UInt64) : Settles contract (fun _ => True) (Program.wait ms) :=
  fun _ _ hp => ⟨hp, rfl, trivial⟩

theorem query (c : ContractId) (q : Query) :
    (perform (.query c q)).Settles contract fun _ => True :=
  fun _ _ hp _ => ⟨hp, rfl, trivial⟩

theorem fetch (c : ContractId) (after : Option Position) (limit : Nat) :
    (perform (.fetch c after limit)).Settles contract fun _ => True :=
  fun _ _ hp _ => ⟨hp, rfl, trivial⟩

theorem stopRequested : (perform .stopRequested).Settles contract fun _ => True :=
  fun _ _ hp _ => ⟨hp, rfl, trivial⟩

theorem retrying {job : Job (Except IndexerError α)} (h : job.Settles contract fun _ => True)
    (policy : RetryPolicy) : (retrying policy contract job).Settles contract fun _ => True := by
  intro p tx hp
  let even (b : Balance) : Prop := b.data.Derived contract ∧ b.owed = 0 ∧ True
  refine wp_retrying_of_mono (Effect.booked_mono contract) (fun h => h) policy even
    (fun _ => even) (fun _ => even) ?_ ⟨hp, rfl, trivial⟩ (fun _ _ hb => hb) (fun _ _ hb => hb)
  rintro ⟨p, tx, owed⟩ ⟨hp, rfl, -⟩
  refine wp_mono (Effect.booked_mono contract) job ?_ (h p tx hp)
  rintro (e | a) b hb
  · exact ⟨hb, hb⟩
  · exact hb

end Settles

theorem wp_transact_booked {p : Partition} (hp : p.Derived contract) (es : List RawEvent)
    (tx : Option WriteSet) :
    (transact contract (Batch.process contract es)).wp (Effect.booked contract) (fun r b =>
      b.data.Derived contract ∧
        match r with
        | .ok report => b.owed = report.tally
        | .error _ => b.owed = 0) (Balance.mk p tx 0) := by
  obtain ⟨logged, hp⟩ := hp
  rw [transact_eq, wp_bind]
  refine ⟨rfl, ?_⟩
  change ((ofBatch _).run >>= conclude).wp _ _ _
  rw [wp_bind]
  apply wp_ofBatch_of_request (fun w => Balance.mk p (some w) 0) (fun _ _ _ h => h)
  rw [WriteSet.mergeInto_start]
  refine wp_mono (Rule.mono_ofAnswer _) _ ?_ (Batch.wp_process_of_holds hp es)
  rintro (e | report) p' hprocessed w rfl
  · exact ⟨⟨logged, hp⟩, rfl⟩
  · refine ⟨⟨⟨logged, hp⟩, rfl⟩, report.tally, rfl, hprocessed.accounts hp, ?_⟩
    exact ⟨⟨_, hprocessed.holds⟩, zero_add _⟩

theorem settles_process (policy : RetryPolicy) (contract : ContractId) (es : List RawEvent) :
    (process policy contract es).Settles contract fun _ => True := by
  intro p tx hp
  let even (b : Balance) : Prop := b.data.Derived contract ∧ b.owed = 0
  rw [process, wp_bind, wp_clock]
  intro started
  rw [wp_bind]
  refine wp_retrying_of_mono (Effect.booked_mono contract) (fun h => h) policy even
    (fun report b => b.data.Derived contract ∧ b.owed = report.tally) (fun _ => even)
    ?_ ⟨hp, rfl⟩ ?_ (fun _ _ hb => ⟨hb.1, hb.2, trivial⟩)
  · rintro ⟨p, tx, owed⟩ ⟨hp, rfl⟩
    refine wp_mono (Effect.booked_mono contract) _ ?_ (wp_transact_booked hp es tx)
    rintro (e | report) b hb
    · exact ⟨hb, hb⟩
    · exact hb
  · rintro report b ⟨hb, howed⟩ ended
    refine ⟨howed, ?_⟩
    cases report.line <;> exact ⟨hb, rfl, trivial⟩

end Job

namespace Worker

variable {contract : ContractId}

theorem settles_wait (w : Worker) : w.wait.Settles contract fun _ => True := by
  refine Job.Settles.stopRequested.bind fun stop _ => ?_
  cases stop with
  | false => exact .wait _
  | true => exact .pure trivial

theorem settles_fetch (w : Worker) : w.fetch.Settles w.contract fun _ => True :=
  ((Job.Settles.fetch _ _ _).bind fun _ _ => .pure trivial).retrying _

theorem settles_round (w : Worker) :
    w.round.Settles w.contract fun r => r.1.contract = w.contract := by
  refine Job.Settles.stopRequested.bind fun stop _ => ?_
  cases stop with
  | true => exact .pure rfl
  | false =>
    refine w.settles_fetch.bind fun fetched _ => ?_
    rcases fetched with e | _ | ⟨e, es⟩
    · exact .pure rfl
    · dsimp only
      split
      · exact .pure rfl
      · exact w.settles_wait.bind fun _ _ => .pure rfl
    · refine (Job.settles_process _ w.contract (e :: es)).bind fun r _ => ?_
      cases r <;> exact .pure rfl

theorem settles_finish (w : Worker) (exit : Exit) :
    (w.finish exit).Settles contract fun _ => True := by
  cases exit <;> exact (Job.Settles.write _).bind fun _ _ => .pure trivial

theorem settles_rounds (w : Worker) (limit : Nat) :
    (w.rounds limit).Settles w.contract fun _ => True := by
  induction limit generalizing w with
  | zero => exact .pure trivial
  | succ limit ih =>
    refine w.settles_round.bind ?_
    rintro ⟨w', exit⟩ hw'
    cases exit with
    | none =>
      rw [← show w'.contract = w.contract from hw']
      exact ih w'
    | some exit => exact (w'.settles_finish exit).bind fun _ _ => .pure trivial

theorem settles_run (config : Config) (contract : ContractId) (limit : Nat) :
    (run config contract limit).Settles contract fun _ => True := by
  have hresume : (Job.retrying config.retryPolicy contract do
      return (← Job.resumePosition contract).mapError IndexerError.storage).Settles contract
        fun _ => True := by
    have hposition : (Job.resumePosition contract).Settles contract fun _ => True :=
      (Job.Settles.query _ _).bind fun _ _ => .pure trivial
    exact (hposition.bind fun _ _ => .pure trivial).retrying _
  refine hresume.bind fun resumed _ => ?_
  cases resumed with
  | error e => exact (Job.Settles.write _).bind fun _ _ => .pure trivial
  | ok after =>
    exact (Job.Settles.write _).bind fun _ _ => settles_rounds (start config contract after) limit

end Worker

/-! ## Counting commits -/

def Effect.commits : (e : Effect) → e.Answer → Nat
  | .commit, .ok () => 1
  | _, _ => 0

/-- Answers all effects at the desk, and counts the transactions that are committed. -/
def Desk.counting {σ ρ : Type} [Store σ] [EventSource ρ] :
    Handler Effect.signature (StateM (Desk σ ρ × Nat)) where
  answer e := fun (d, n) =>
    let (a, d) := d.answer e
    (a, d, n + e.commits a)
  note line := fun (d, n) =>
    let ((), d) := (Desk.handler.note line).run d
    ((), d, n)
  now := fun (d, n) =>
    let (t, d) := Desk.handler.now.run d
    (t, d, n)
  pause ms := fun (d, n) =>
    let ((), d) := (Desk.handler.pause ms).run d
    ((), d, n)

section Counting

variable {ρ α : Type} [EventSource ρ]

/-- That commits are counted makes no difference to the steps of a job. -/
theorem step_counting (job : Job α) (d : Desk MemoryStore ρ) (n : Nat) :
    let next := (job.step Desk.handler).run d
    ((job.step Desk.counting).run (d, n)).1 = next.1 ∧
      ((job.step Desk.counting).run (d, n)).2.1 = next.2 := by
  cases job <;> exact ⟨rfl, rfl⟩

theorem run_counting (job : Job α) (d : Desk MemoryStore ρ) (n : Nat) :
    let ended := (job.run Desk.handler).run d
    ((job.run Desk.counting).run (d, n)).1 = ended.1 ∧
      ((job.run Desk.counting).run (d, n)).2.1 = ended.2 := by
  induction job generalizing d n with
  | done a => exact ⟨rfl, rfl⟩
  | note line job ih | pause ms job ih => exact ih _ _
  | now job ih | call op job ih => exact ih _ _ _

/-- The desk has the data and the transaction of the balance. It keeps the books, in which `rest` is
owed beside. The data of all other contracts are as in `store`. -/
structure Desk.Keeps (contract : ContractId) (store : MemoryStore) (rest : Tally) (committed : Nat)
    (d : Desk MemoryStore ρ × Nat) (b : Balance) : Prop where
  data_eq : b.data = d.1.world.store.partition contract
  tx_eq : b.tx = d.1.tx
  contract_eq : ∀ w : WriteSet, d.1.tx = some w → w.contract = contract
  books : d.1.world.Books (rest + b.owed) (committed + d.2)
  other_eq : ∀ other, other ≠ contract →
    d.1.world.store.partition other = store.partition other

theorem counting_obeys (contract : ContractId) (store : MemoryStore) (rest : Tally)
    (committed : Nat) :
    (Desk.counting : Handler _ (StateM (Desk MemoryStore ρ × Nat))).Obeys (Effect.booked contract)
      (Desk.Keeps contract store rest committed) where
  note line s b h := ⟨h.data_eq, h.tx_eq, h.contract_eq, h.books.congr rfl rfl, h.other_eq⟩
  now s b h := ⟨h.data_eq, h.tx_eq, h.contract_eq, h.books.congr rfl rfl, h.other_eq⟩
  pause ms s b h := h
  answer := by
    rintro op Q ⟨⟨world, tx⟩, n⟩ ⟨data, tx', owed⟩ ⟨rfl, htx, hcontract, hbooks, hother⟩ hQ
    obtain rfl : tx = tx' := htx.symm
    have hnone : ∀ w : WriteSet, (none : Option WriteSet) = some w → w.contract = contract := by
      simp
    cases op with
    | query | fetch => exact ⟨_, ⟨rfl, rfl, hcontract, hbooks.congr rfl rfl, hother⟩, hQ _⟩
    | stopRequested => exact ⟨_, ⟨rfl, rfl, hcontract, hbooks, hother⟩, hQ _⟩
    | recordBatch report nanos =>
      obtain ⟨rfl, hQ⟩ := hQ
      have hcounted := hbooks.recordBatch nanos
      rw [← add_zero rest] at hcounted
      exact ⟨⟨_, tx, 0⟩, ⟨rfl, rfl, hcontract, hcounted, hother⟩, hQ⟩
    | recordRetry =>
      have hretried := hbooks.congr rfl world.metrics.read_recordRetry
      exact ⟨_, ⟨rfl, rfl, hcontract, hretried, hother⟩, hQ⟩
    | start c =>
      obtain ⟨rfl, hQ⟩ := hQ
      refine ⟨⟨_, some (.start c), owed⟩, ⟨rfl, rfl, ?_, hbooks.congr rfl rfl, hother⟩, hQ⟩
      rintro w ⟨⟩
      rfl
    | request r =>
      cases tx with
      | none => exact ⟨_, ⟨rfl, rfl, hnone, hbooks, hother⟩, hQ⟩
      | some w =>
        obtain rfl := hcontract w rfl
        let next := (w.request (world.store.partition w.contract) r).2
        refine ⟨⟨_, some next, owed⟩, ⟨rfl, rfl, ?_, hbooks.congr rfl rfl, hother⟩, hQ⟩
        rintro w' ⟨⟩
        exact w.request_contract _ r
    | abandon =>
      cases tx <;>
        exact ⟨⟨_, none, owed⟩, ⟨rfl, rfl, hnone, hbooks.congr rfl rfl, hother⟩, hQ⟩
    | commit =>
      cases tx with
      | none => exact ⟨_, ⟨rfl, rfl, hnone, hbooks, hother⟩, hQ⟩
      | some w =>
        obtain rfl := hcontract w rfl
        obtain ⟨hrefused, d, hbatches, hd, hcommitted⟩ := hQ
        obtain ⟨⟨partitions, failures⟩, source, metrics, stop, times, looks, journal⟩ := world
        cases failures with
        | succ m =>
          exact ⟨⟨_, none, owed⟩, ⟨rfl, rfl, hnone, hbooks.congr rfl rfl, hother⟩, hrefused⟩
        | zero =>
          let merged := w.mergeInto (MemoryStore.partition ⟨partitions, 0⟩ w.contract)
          have hsame := MemoryStore.partition_insert_self ⟨partitions, 0⟩ w.contract merged 0
          have hothers (c : ContractId) (hc : c ≠ w.contract) :=
            MemoryStore.partition_insert_of_ne ⟨partitions, 0⟩ hc merged 0
          refine ⟨⟨merged, none, owed + d⟩, ⟨hsame.symm, rfl, hnone, ?_, ?_⟩, hcommitted⟩
          · let after : World MemoryStore ρ := ⟨⟨partitions.insert w.contract merged, 0⟩, source,
              metrics, stop, times, looks, journal⟩
            have hafter : after.Books (rest + owed + d) (committed + n + d .batches) :=
              hbooks.commit (hsame.symm ▸ hd) hothers rfl
            rwa [add_assoc, Nat.add_assoc, hbatches] at hafter
          · exact fun c hc => (hothers c hc).trans (hother c hc)

end Counting

end EventIndex
