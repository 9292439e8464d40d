import EventIndex.Proofs.Indexer.Call

/-! # Single events

A batch of one event after the checkpoint does to the rows what the event does, and reports what has
come of it. -/

namespace EventIndex

variable {contract : ContractId} {es : List RawEvent} {x : RawEvent} {d : Decoded}

/-- The report of a batch that has indexed one event, which came to this. -/
def BatchReport.single (contract : ContractId) (x : RawEvent) (outcome : Except Refusal Applied) :
    BatchReport :=
  { BatchReport.count { BatchReport.empty contract with eventsSeen := 1, indexed := 1 } (.of x)
      outcome with
    lastPosition := some x.position }

namespace Partition.Holds

theorem process_single {p : Partition} (h : p.Holds contract es) (hx : x.contract = contract)
    (hafter : x.After es) (hdecode : decode (.classify x.topic) x.payload x.position = .ok d)
    (time now : Timestamp) :
    (p.process contract [(x, time)] now).1 =
        .single contract x (p.tables.apply contract x.position d).1 ∧
      (p.process contract [(x, time)] now).2.tables =
        (p.tables.apply contract x.position d).2 := by
  subst hx
  have htake := h.start.take_eq_append hafter time
  simp only [Partition.process, Course.takeAll, List.foldl_cons, List.foldl_nil, htake,
    Course.project, hdecode]
  exact ⟨rfl, rfl⟩

end Partition.Holds

/-- A call with one event after the checkpoint does to the rows what the event does, or it fails and
does nothing. It fails only if too many commits are refused. -/
theorem World.process_single {ρ : Type} [EventSource ρ] {w : World MemoryStore ρ}
    (h : (w.store.partition contract).Holds contract es) (hx : x.contract = contract)
    (hafter : ∀ c, (w.store.partition contract).checkpoint = some c → c.position < x.position)
    (hdecode : decode (.classify x.topic) x.payload x.position = .ok d) (policy : RetryPolicy) :
    let applied := (w.store.partition contract).tables.apply contract x.position d
    let called := w.perform (Job.process policy contract [x])
    (w.store.commitFailures ≤ policy.maxRetries.toNat → ∃ report, called.1 = .ok report) ∧
      (∀ e, called.1 = .error e → called.2.store.partitions = w.store.partitions) ∧
      ∀ report, called.1 = .ok report → report = .single contract x applied.1 ∧
        (called.2.store.partition contract).tables = applied.2 := by
  intro applied called
  have hcontract : ∀ e ∈ [x], e.contract = contract := by simpa using hx
  obtain ⟨last, hdecided, hok⟩ := w.perform_process policy contract [x]
  refine ⟨hok (w.commits_process hcontract), fun e he => hdecided.of_error he, ?_⟩
  intro report hreport
  obtain ⟨times, now, htimes, hcomputed⟩ := (hdecided.processed h hreport).computed
  obtain ⟨time, rfl⟩ := List.length_eq_one_iff.mp htimes
  obtain ⟨hsingle, htables⟩ :=
    h.process_single hx (h.after_of_checkpoint hafter) hdecode time now
  constructor
  · exact (congrArg Prod.fst hcomputed).symm.trans hsingle
  · exact (congrArg (fun r => r.2.tables) hcomputed).symm.trans htables

end EventIndex
