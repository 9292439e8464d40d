import EventIndex.Proofs.Indexer.Call
import EventIndex.Proofs.Indexer.System

/-! # Rebuilding in place

A rebuild hides the rows and the checkpoint, but not the log, and goes over the log within the same
transaction. It finds every event there and ends with the data that it began with. -/

namespace EventIndex

namespace Rebuilt

variable {contract : ContractId} {es : List RawEvent} {p p' : Partition} {report : BatchReport}

theorem report_eq (h : Rebuilt contract es p report p') :
    report.eventsSeen = es.length ∧ report.alreadyLogged = es.length ∧ report.indexed = 0 ∧
      report.replayed = 0 ∧ report.orderingViolations = [] ∧ report.logConflicts = [] := by
  have halready := congrArg Delivery.alreadyLogged h.delivery_eq
  have hviolations := congrArg Delivery.violations h.delivery_eq
  refine ⟨h.eventsSeen_eq, ?_, congrArg Delivery.indexed h.delivery_eq,
    congrArg Delivery.replayed h.delivery_eq, List.map_eq_nil_iff.mp hviolations,
    congrArg Delivery.logConflicts h.delivery_eq⟩
  simpa [BatchReport.delivery, Delivery.recognizedMore, BatchReport.empty] using halready

end Rebuilt

namespace System

variable {ρ : Type} [EventSource ρ]

/-- In every reachable state, a rebuild leaves the rows, the log and the checkpoint of its contract
as they are, but for the time of the checkpoint, and it leaves other contracts alone. -/
theorem Reachable.rebuild_identity {s : System ρ} (h : s.Reachable)
    (hcommit : s.world.store.commitFailures = 0) (policy : RetryPolicy) (contract : ContractId) :
    let before := s.data contract
    let called := s.world.perform (Job.rebuild policy contract)
    let after := called.2.store.partition contract
    (∃ report, called.1 = .ok report ∧
        report.eventsSeen = before.entries.length ∧
        report.alreadyLogged = before.entries.length ∧ report.indexed = 0 ∧
        report.replayed = 0 ∧ report.orderingViolations = [] ∧ report.logConflicts = []) ∧
      after.tables = before.tables ∧ after.log = before.log ∧
      after.checkpoint.map Checkpoint.timeless = before.checkpoint.map Checkpoint.timeless ∧
      ∀ other, other ≠ contract →
        called.2.store.partitions[other]? = s.world.store.partitions[other]? := by
  intro before called after
  obtain ⟨es, hes⟩ := h.derived contract
  have hlength : before.entries.length = es.length := by
    rw [← hes.entries_eq, List.length_map]
  obtain ⟨last, hdecided, hok⟩ := s.world.perform_rebuild policy contract
  obtain ⟨report, hanswer⟩ :=
    hok (World.commits_rebuild hes) (by rw [hcommit]; exact Nat.zero_le _)
  have hlast : (last.store.partition contract).Holds contract es := by
    rwa [hdecided.partition_eq]
  have hrebuilt := World.transact_rebuild_ok hlast ((hdecided.answer_iff report).mp hanswer)
  rw [hdecided.partition_eq, ← hdecided.store_eq] at hrebuilt
  refine ⟨⟨report, hanswer, ?_⟩, ?_, hrebuilt.log_eq hes, ?_, ?_⟩
  · rw [hlength]
    exact hrebuilt.report_eq
  · exact hrebuilt.holds.tables_eq.trans hes.tables_eq.symm
  · exact congrArg (fun t => t.2.2) (hrebuilt.holds.timeless_eq hes)
  · intro other hother
    rw [hdecided.store_eq, World.transact_other _ hother, hdecided.partitions_eq]

/-- A reward and the quarantine of a proposal are rebuilt, with a batch of another contract
before. -/
theorem rebuild_identity_after_process :
    let contract : ContractId := ⟨"C"⟩
    let other : ContractId := ⟨"D"⟩
    let added : RawEvent := ⟨contract, "REWARD_ADDED", .object [("added_at", .number "1"),
      ("amount", .string "5"), ("reason", .string "bug"), ("recipient", .string "R"),
      ("reward_id", .number "7")], 1, .epoch, .replicate 0, 0⟩
    let cancelled : RawEvent := ⟨contract, "PROPOSAL_CANCELLED", .object [
      ("cancelled_at", .number "2"), ("cancelled_by", .string "A"), ("proposal_id", .number "7")],
      2, .epoch, .replicate 0, 0⟩
    let note : RawEvent := ⟨other, "NOTE", .null, 1, .epoch, .replicate 0, 0⟩
    let policy : RetryPolicy := ⟨3, 100, 2.0, 1000⟩
    let noted (es : List RawEvent) : World MemoryStore MemorySource :=
      ((World.start .empty .empty).perform (Job.process policy other es)).2
    let run (es fs : List RawEvent) : System MemorySource :=
      ⟨((noted es).perform (Job.process policy contract fs)).2, fun _ => none⟩
    let s := run [note] [added, cancelled]
    let called := s.world.perform (Job.rebuild policy contract)
    let after := called.2.store.partition contract
    s.Reachable ∧ s.world.store.commitFailures = 0 ∧
      (∃ report, called.1 = .ok report ∧ report.alreadyLogged = 2) ∧
      (after.tables.row? .reward 7).isSome ∧
      (after.tables.quarantine? ⟨.proposal, 7⟩).isSome ∧
      after.tables = (s.data contract).tables ∧ after.log = (s.data contract).log := by
  intro contract other added cancelled note policy noted run s
  have hstart : (⟨World.start .empty .empty, fun _ => none⟩ : System MemorySource).Reachable :=
    .start rfl
  have hnoted (es : List RawEvent) : (⟨noted es, fun _ => none⟩ : System MemorySource).Reachable :=
    hstart.perform rfl (.process policy es)
  have hrun (es fs : List RawEvent) : (run es fs).Reachable :=
    (hnoted es).perform rfl (.process policy fs)
  have hreachable : s.Reachable := hrun _ _
  have hcommit : s.world.store.commitFailures = 0 := by decide +kernel
  have hcount : (s.data contract).entries.length = 2 := by decide +kernel
  have hreward : ((s.data contract).tables.row? .reward 7).isSome := by decide +kernel
  have hproposal : ((s.data contract).tables.quarantine? ⟨.proposal, 7⟩).isSome := by
    decide +kernel
  have hidentity := hreachable.rebuild_identity hcommit policy contract
  dsimp only at hidentity ⊢
  obtain ⟨⟨report, hanswer, -, halready, -⟩, htables, hlog, -⟩ := hidentity
  rw [htables]
  exact ⟨hreachable, hcommit, ⟨report, hanswer, halready.trans hcount⟩, hreward, hproposal, rfl,
    hlog⟩

end System

end EventIndex
