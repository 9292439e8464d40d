import EventIndex.Proofs.Indexer.Call

/-! # Events delivered again

A batch of logged events over a store in memory: it gives every event back as it was recorded, so
all of them are replayed. -/

namespace EventIndex

section Deliveries

variable {logged es : List RawEvent}

theorem not_after_of_mem {e : RawEvent} (h : e ∈ logged) : ¬ e.After logged :=
  fun hafter => (hafter e h).false

theorem maxima_of_subset (h : es ⊆ logged) : maxima logged es = [] := by
  induction es with
  | nil => rfl
  | cons e es ih =>
    obtain ⟨he, hes⟩ := List.cons_subset.mp h
    rw [maxima_cons_of_not_after (not_after_of_mem he), ih hes]

theorem late_of_subset (h : es ⊆ logged) : late logged es = es := by
  induction es with
  | nil => rfl
  | cons e es ih =>
    obtain ⟨he, hes⟩ := List.cons_subset.mp h
    rw [late_cons_of_not_after (not_after_of_mem he), ih hes]

end Deliveries

variable {contract : ContractId} {logged es : List RawEvent}

/-- A batch of logged events changes nothing, and all of them are replayed. -/
theorem Processed.replayed_of_subset {p p' : Partition} {report : BatchReport}
    (h : Processed contract logged es p report p') (hlogged : Rising logged) (hes : es ⊆ logged) :
    p' = p ∧ report.replayed = es.length ∧ report.orderingViolations = [] := by
  have hprefix : logged ++ maxima logged es <+: logged := by
    simp [maxima_of_subset hes]
  have hdelivery := h.delivery_eq logged hprefix hlogged
  rw [maxima_of_subset hes, late_of_subset hes] at hdelivery
  refine ⟨h.eq_of_late fun e he => not_after_of_mem (hes he), ?_, ?_⟩
  · have hcount : es.countP (· ∈ logged) = es.length :=
      List.countP_eq_length.mpr fun e he => decide_eq_true (hes he)
    have hreplayed := congrArg Delivery.replayed hdelivery
    simpa [BatchReport.delivery, Delivery.dropped, Delivery.indexedMore, BatchReport.empty, hcount]
      using hreplayed
  · have hnone : es.filter (· ∉ logged) = [] :=
      List.filter_eq_nil_iff.mpr fun e he => by simpa using hes he
    have hviolations := congrArg Delivery.violations hdelivery
    rw [Delivery.dropped, hnone] at hviolations
    exact List.map_eq_nil_iff.mp hviolations

/-- Over a store in memory all logged events that are delivered again are replayed. -/
theorem World.perform_logged {ρ : Type} [EventSource ρ] {w : World MemoryStore ρ}
    (h : (w.store.partition contract).Holds contract logged) (hes : es ⊆ logged)
    {policy : RetryPolicy} (hcommit : w.store.commitFailures ≤ policy.maxRetries.toNat) :
    ∃ report, (w.perform (Job.process policy contract es)).1 = .ok report ∧
      report.replayed = es.length ∧ report.orderingViolations = [] := by
  obtain ⟨last, hdecided, hok⟩ := w.perform_process policy contract es
  have hcontract (e : RawEvent) (he : e ∈ es) : e.contract = contract :=
    h.log.contract_eq e (hes he)
  obtain ⟨report, hreport⟩ := hok (w.commits_process hcontract) hcommit
  have hprocessed := hdecided.processed h hreport
  exact ⟨report, hreport, (hprocessed.replayed_of_subset h.log.rising hes).2⟩

end EventIndex
