import EventIndex.Proofs.Batch.Cut
import EventIndex.Proofs.Delivery.Maxima

/-! # Batches in chunks

Whether events are processed in one transaction or in several makes no difference, whatever the data
are: neither to the data, but for dates, nor to what is reported of the events together. -/

namespace EventIndex

namespace World

variable {ρ : Type} [EventSource ρ] {w : World MemoryStore ρ} {contract : ContractId}

theorem transact_process_settled {es : List RawEvent} (hes : ∀ e ∈ es, e.contract = contract)
    (hcommit : w.store.commitFailures = 0) :
    let settled := (w.store.partition contract).settled contract es
    let attempt := w.transact contract (Batch.process contract es)
    attempt.1 = .ok settled.1 ∧ (attempt.2.store.partition contract).undated = settled.2 ∧
      attempt.2.store.commitFailures = 0 := by
  obtain ⟨p, hp, hanswer, hstore⟩ := transact_settled (w := w) hes
  rw [MemoryStore.settle_of_commitFailures_eq_zero hcommit] at hanswer hstore
  refine ⟨hanswer, ?_, ?_⟩
  · rw [hstore, MemoryStore.partition_insert_self, hp]
  · rw [hstore]
    exact hcommit

theorem processAll_settled {batches : List (List RawEvent)}
    (hbatches : ∀ b ∈ batches, ∀ e ∈ b, e.contract = contract)
    (hcommit : w.store.commitFailures = 0) :
    let settled := (w.store.partition contract).settledAll contract batches
    let run := w.processAll contract batches
    run.1 = settled.1.map .ok ∧ (run.2.store.partition contract).undated = settled.2 := by
  induction batches generalizing w with
  | nil => exact ⟨rfl, rfl⟩
  | cons b batches ih =>
    obtain ⟨hanswer, hdata, hcommit'⟩ :=
      transact_process_settled (hbatches b List.mem_cons_self) hcommit
    obtain ⟨hanswers, hlast⟩ := ih (fun c hc => hbatches c (List.mem_cons_of_mem b hc)) hcommit'
    rw [← Partition.settledAll_undated, hdata] at hanswers hlast
    refine ⟨?_, hlast⟩
    rw [processAll, hanswer, hanswers]
    rfl

/-- However a batch of the contract is cut into parts, in one transaction it does to the data, but
for dates, what the parts do in a transaction each, and what it reports is what they report
together. -/
theorem process_cut (hcommit : w.store.commitFailures = 0) (contract : ContractId) :
    (∀ b₁ b₂ : List RawEvent, (∀ e ∈ b₁ ++ b₂, e.contract = contract) →
      let whole := w.transact contract (Batch.process contract (b₁ ++ b₂))
      let first := w.transact contract (Batch.process contract b₁)
      let second := first.2.transact contract (Batch.process contract b₂)
      ∃ r₁ r₂ : BatchReport, first.1 = .ok r₁ ∧ second.1 = .ok r₂ ∧
        whole.1 = .ok (r₁.combine r₂) ∧
        (whole.2.store.partition contract).undated =
          (second.2.store.partition contract).undated) ∧
      ∀ (b : List RawEvent) (batches : List (List RawEvent)),
        (∀ e ∈ b ++ batches.flatten, e.contract = contract) →
          let whole := w.transact contract (Batch.process contract (b ++ batches.flatten))
          let parts := w.processAll contract (b :: batches)
          ∃ (r : BatchReport) (rs : List BatchReport), parts.1 = (r :: rs).map .ok ∧
            whole.1 = .ok (rs.foldl .combine r) ∧
            (whole.2.store.partition contract).undated =
              (parts.2.store.partition contract).undated := by
  refine ⟨fun b₁ b₂ hes => ?_, fun b batches hes => ?_⟩
  · obtain ⟨hes₁, hes₂⟩ := List.forall_mem_append.mp hes
    obtain ⟨hwhole, hdata, -⟩ := transact_process_settled hes hcommit
    obtain ⟨hfirst, hdata₁, hcommit₁⟩ := transact_process_settled hes₁ hcommit
    obtain ⟨hsecond, hdata₂, -⟩ := transact_process_settled hes₂ hcommit₁
    rw [← Partition.settled_undated, hdata₁] at hsecond hdata₂
    rw [Partition.settled_append] at hwhole hdata
    exact ⟨_, _, hfirst, hsecond, hwhole, hdata.trans hdata₂.symm⟩
  · have hbatches : ∀ c ∈ b :: batches, ∀ e ∈ c, e.contract = contract := by
      simp only [List.forall_mem_append, List.mem_flatten] at hes
      simp only [List.forall_mem_cons]
      exact ⟨hes.1, fun c hc e he => hes.2 e ⟨c, hc, he⟩⟩
    obtain ⟨hwhole, hdata, -⟩ := transact_process_settled hes hcommit
    obtain ⟨hparts, hlast⟩ := processAll_settled hbatches hcommit
    rw [Partition.settled_append_flatten] at hwhole hdata
    exact ⟨_, _, hparts, hwhole, hdata.trans hlast.symm⟩

/-- A refusal quarantines a proposal in the first part. In the second part the event is delivered
again, and another event of the proposal is refused because of the quarantine. -/
theorem process_cut_after_refusal :
    let contract : ContractId := ⟨"C"⟩
    let cancelled (ledger : UInt32) : RawEvent := ⟨contract, "PROPOSAL_CANCELLED", .object [
      ("cancelled_at", .number "2"), ("cancelled_by", .string "A"), ("proposal_id", .number "7")],
      ledger, .epoch, .replicate 0, 0⟩
    let b₁ := [cancelled 1]
    let b₂ := [cancelled 1, cancelled 2]
    let w : World MemoryStore MemorySource := .start .empty .empty
    let whole := w.transact contract (Batch.process contract (b₁ ++ b₂))
    let first := w.transact contract (Batch.process contract b₁)
    let second := first.2.transact contract (Batch.process contract b₂)
    w.store.commitFailures = 0 ∧
      (∀ e ∈ b₁ ++ b₂, e.contract = contract) ∧
      ∃ r₁ r₂ : BatchReport, first.1 = .ok r₁ ∧ second.1 = .ok r₂ ∧
        whole.1 = .ok (r₁.combine r₂) ∧
        (whole.2.store.partition contract).undated =
          (second.2.store.partition contract).undated ∧
        r₁.rejected.length = 1 ∧ r₂.rejected.length = 1 ∧ r₂.replayed = 1 := by
  intro contract cancelled b₁ b₂ w whole first second
  have hcommit : w.store.commitFailures = 0 := rfl
  have hes : ∀ e ∈ b₁ ++ b₂, e.contract = contract := by simp [b₁, b₂, cancelled]
  have hrefused : first.1.toOption.map (·.rejected.length) = some 1 := by decide +kernel
  have hagain : second.1.toOption.map (fun r => (r.rejected.length, r.replayed)) =
      some (1, 1) := by decide +kernel
  obtain ⟨htwo, -⟩ := process_cut hcommit contract
  obtain ⟨r₁, r₂, hfirst, hsecond, hwhole, hdata⟩ :=
    htwo b₁ b₂ hes
  have hrejected : some 1 = some r₁.rejected.length :=
    hrefused.symm.trans (congrArg (fun r => r.toOption.map (·.rejected.length)) hfirst)
  have hreplayed : some (1, 1) = some (r₂.rejected.length, r₂.replayed) :=
    hagain.symm.trans
      (congrArg (fun r => r.toOption.map fun r => (r.rejected.length, r.replayed)) hsecond)
  simp only [Option.some.injEq, Prod.mk.injEq] at hrejected hreplayed
  dsimp only [whole, first, second]
  exact ⟨hcommit, hes, r₁, r₂, hfirst, hsecond, hwhole, hdata, hrejected.symm, hreplayed.1.symm,
    hreplayed.2.symm⟩

end World

end EventIndex
