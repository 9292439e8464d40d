import EventIndex.Proofs.Batch.Undated
import EventIndex.Proofs.Indexer.Transaction

/-! # Attempts at a batch

An attempt at a batch or a rebuild, in a transaction of its own, either does to the committed data
of its contract what the batch does, or changes no data. -/

namespace EventIndex

namespace World

variable {ρ : Type} [EventSource ρ] {w : World MemoryStore ρ} {contract : ContractId}
  {es fs : List RawEvent} {report : BatchReport} {e : IndexerError}

theorem transact_error {α : Type} {b : Batch α}
    (hr : (w.transact contract b).1 = .error e) :
    (w.transact contract b).2.store.partitions = w.store.partitions := by
  obtain ⟨r, p, -, hresult, hstore⟩ := w.transact_spec contract b (Program.wp_true _ _ _)
  rw [hresult] at hr
  rw [hstore, MemoryStore.settle_error hr]

theorem transact_other {α : Type} (b : Batch α) {other : ContractId} (hother : other ≠ contract) :
    (w.transact contract b).2.store.partitions[other]? = w.store.partitions[other]? := by
  obtain ⟨r, p, -, -, hstore⟩ := w.transact_spec contract b (Program.wp_true _ _ _)
  rw [hstore, MemoryStore.settle_other _ _ _ _ hother]

theorem transact_process_ok (h : (w.store.partition contract).Holds contract es)
    (hr : (w.transact contract (Batch.process contract fs)).1 = .ok report) :
    Processed contract es fs (w.store.partition contract) report
      ((w.transact contract (Batch.process contract fs)).2.store.partition contract) := by
  obtain ⟨r, p, hQ, hresult, hstore⟩ :=
    w.transact_spec contract _ (Batch.wp_process_of_holds h fs)
  rw [hresult] at hr
  obtain ⟨rfl, hp⟩ := MemoryStore.settle_ok hr
  rwa [hstore, hp]

theorem transact_process_of_contract (h : (w.store.partition contract).Holds contract es)
    (hfs : ∀ e ∈ fs, e.contract = contract) (hcommit : w.store.commitFailures = 0) :
    ∃ report, (w.transact contract (Batch.process contract fs)).1 = .ok report ∧
      (w.transact contract (Batch.process contract fs)).2.store.commitFailures = 0 := by
  obtain ⟨r, p, hQ, hresult, hstore⟩ :=
    w.transact_spec contract _ (Batch.wp_process_of_holds h fs)
  cases r with
  | error e =>
    obtain ⟨f, hf, hforeign, -⟩ := hQ
    exact absurd (hfs f hf) hforeign
  | ok report =>
    rw [MemoryStore.settle_of_commitFailures_eq_zero hcommit] at hresult hstore
    exact ⟨report, hresult, by rw [hstore]; exact hcommit⟩

theorem transact_rebuild_ok (h : (w.store.partition contract).Holds contract es)
    (hr : (w.transact contract (Batch.rebuild contract)).1 = .ok report) :
    Rebuilt contract es (w.store.partition contract) report
      ((w.transact contract (Batch.rebuild contract)).2.store.partition contract) := by
  obtain ⟨r, p, ⟨report', rfl, hrebuilt⟩, hresult, hstore⟩ :=
    w.transact_spec contract _ (Batch.wp_rebuild_of_holds h)
  rw [hresult] at hr
  obtain ⟨hreport, hp⟩ := MemoryStore.settle_ok hr
  cases hreport
  rwa [hstore, hp]

/-! ## Attempts on any data -/

theorem transact_settled (hes : ∀ e ∈ es, e.contract = contract) :
    ∃ p', p'.undated = ((w.store.partition contract).settled contract es).2 ∧
      let settled := w.store.settle contract
        (.ok ((w.store.partition contract).settled contract es).1) p'
      (w.transact contract (Batch.process contract es)).1 = settled.1 ∧
        (w.transact contract (Batch.process contract es)).2.store = settled.2 := by
  have hnone : es.find? (·.contract ≠ contract) = none := by simpa using hes
  obtain ⟨r, p', hQ, hanswer, hstore⟩ :=
    w.transact_spec contract _ (Batch.wp_process_settled contract es _)
  rw [hnone] at hQ
  obtain ⟨rfl, hp'⟩ := hQ
  exact ⟨p', hp', hanswer, hstore⟩

/-- A batch with an event of another contract is given up, and nothing has changed. -/
theorem transact_foreign {e : RawEvent}
    (he : es.find? (·.contract ≠ contract) = some e) :
    (w.transact contract (Batch.process contract es)).1 =
        .error (.foreignEvent contract e.contract) ∧
      (w.transact contract (Batch.process contract es)).2.store = w.store := by
  obtain ⟨r, p', hQ, hanswer, hstore⟩ :=
    w.transact_spec contract _ (Batch.wp_process_settled contract es _)
  rw [he] at hQ
  subst hQ
  exact ⟨hanswer, hstore⟩

/-! ## Attempts that can only fail to commit -/

/-- On the data of this world an attempt at the batch fails only if its commit is refused, which
uses up one of the refusals to come. -/
def Commits {α : Type} (w : World MemoryStore ρ) (contract : ContractId) (b : Batch α) : Prop :=
  ∀ (w' : World MemoryStore ρ) (e : IndexerError), w'.store.partitions = w.store.partitions →
    (w'.transact contract b).1 = .error e → e = .storage .commitRefused ∧
      w'.store.commitFailures = (w'.transact contract b).2.store.commitFailures + 1

theorem Commits.congr {α : Type} {b : Batch α} {w' : World MemoryStore ρ}
    (h : w.Commits contract b) (hdata : w'.store.partitions = w.store.partitions) :
    w'.Commits contract b :=
  fun last e hlast => h last e (hlast.trans hdata)

theorem commits_of_wp {α : Type} {b : Batch α}
    (h : b.run.wp Partition.rule (fun r _ => ∃ a, r = .ok a) (w.store.partition contract)) :
    w.Commits contract b := by
  intro w' e hdata he
  rw [← MemoryStore.partition_congr hdata] at h
  obtain ⟨r, p, ⟨a, rfl⟩, hresult, hstore⟩ := w'.transact_spec contract b h
  rw [hresult] at he
  rw [hstore]
  exact MemoryStore.settle_ok_error he

theorem commits_process (w : World MemoryStore ρ) (hfs : ∀ e ∈ fs, e.contract = contract) :
    w.Commits contract (Batch.process contract fs) := by
  apply commits_of_wp
  apply Batch.wp_process
  · intro _ times now _
    exact ⟨_, rfl⟩
  · intro e he
    have hforeign : e.contract ≠ contract := by simpa using List.find?_some he
    exact absurd (hfs e (List.mem_of_find?_eq_some he)) hforeign

theorem commits_rebuild (h : (w.store.partition contract).Holds contract es) :
    w.Commits contract (Batch.rebuild contract) := by
  refine commits_of_wp (Program.wp_mono (Rule.mono_ofAnswer _) _ ?_ (Batch.wp_rebuild_of_holds h))
  rintro r p ⟨report, rfl, -⟩
  exact ⟨report, rfl⟩

end World

end EventIndex
