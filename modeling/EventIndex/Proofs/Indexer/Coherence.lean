import EventIndex.Proofs.Indexer.System

/-! # Checkpoint and log

The checkpoint of a contract is written by the tracker and the log by the store, on different paths
of a batch and of a rebuild. In every reachable state they agree, and along every run neither goes
back. -/

namespace EventIndex

namespace Partition

/-- There is a checkpoint as soon as an event is logged. It is at the last logged position and
counts the logged events, as far as its word goes. -/
structure Coherent (p : Partition) : Prop where
  isSome_iff : p.checkpoint.isSome ↔ p.entries ≠ []
  logged : ∀ c, p.checkpoint = some c → ∃ x ∈ p.entries, x.position = c.position
  greatest : ∀ c, p.checkpoint = some c → ∀ x ∈ p.entries, x.position ≤ c.position
  count : ∀ c, p.checkpoint = some c →
    c.eventsApplied.toNat = min p.entries.length (UInt64.size - 1)

theorem Holds.coherent {contract : ContractId} {p : Partition} {es : List RawEvent}
    (h : p.Holds contract es) : p.Coherent := by
  have hlength : p.entries.length = es.length := by rw [← h.entries_eq, List.length_map]
  refine ⟨?_, ?_, ?_, ?_⟩
  · rw [h.checkpoint_isSome_iff, ← h.entries_eq, ne_eq, List.map_eq_nil_iff]
  · intro c hc
    obtain ⟨e, he, hposition, -⟩ := h.checkpoint_eq hc
    have hmem := List.mem_of_getLast? he
    rw [← h.entries_eq] at hmem
    obtain ⟨x, hx, rfl⟩ := List.mem_map.mp hmem
    exact ⟨x, hx, hposition⟩
  · intro c hc x hx
    obtain ⟨e, he, hposition, -⟩ := h.checkpoint_eq hc
    have hmem : x.toRaw ∈ es := h.entries_eq ▸ List.mem_map_of_mem hx
    exact (h.log.rising.le_getLast he hmem).trans_eq hposition
  · intro c hc
    obtain ⟨e, -, -, hcount⟩ := h.checkpoint_eq hc
    rw [hcount, hlength, Tracker.toNat_countOf]

end Partition

namespace System

variable {ρ : Type} [EventSource ρ]

/-- The calls fail only for foreign events and refused commits. -/
theorem InProgress.error_isOrdinary {s : System ρ} {contract : ContractId}
    {job : Job (Except IndexerError BatchReport)} (h : InProgress contract job s)
    {e : IndexerError} {tx : Option WriteSet}
    (hcall : s.calls contract = some ⟨.done (.error e), tx⟩) : e.IsOrdinary := by
  cases h.isCall with
  | process policy es => exact h.answer (Job.gives_process policy contract es) hcall
  | rebuild policy => exact h.answer (Job.gives_rebuild policy contract) hcall

/-- In every reachable state the checkpoint of a contract agrees with its log. From there on, no
entry of the log is removed or altered, and the checkpoint does not go back. A batch that was
processed has found no event in the log, and no call fails because the checkpoint was to go back or
because a position in the log was taken. -/
theorem Reachable.checkpoint_coherent {s : System ρ} (h : s.Reachable) (contract : ContractId) :
    (s.data contract).Coherent ∧
      (∀ s', Relation.ReflTransGen Step s s' →
        (∀ (position : Position) (x : LogEntry), (s.data contract).log[position]? = some x →
          (s'.data contract).log[position]? = some x) ∧
        ∀ c, (s.data contract).checkpoint = some c →
          ∃ c', (s'.data contract).checkpoint = some c' ∧ c.position ≤ c'.position) ∧
      (∀ policy es, InProgress contract (Job.process policy contract es) s → ∀ report tx,
        s.calls contract = some ⟨.done (.ok report), tx⟩ →
          report.alreadyLogged = 0 ∧ report.logConflicts = []) ∧
      ∀ e tx, s.calls contract = some ⟨.done (.error e), tx⟩ →
        (∀ c, e.root ≠ .checkpoint c) ∧ ∀ p, e.root ≠ .storage (.positionTaken p) := by
  obtain ⟨es, hes⟩ := h.derived contract
  refine ⟨hes.coherent, ?_, ?_, ?_⟩
  · intro s' hsteps
    have hgrows := h.growsTo hsteps contract
    exact ⟨hgrows.getElem?_log, fun c hc => hgrows.checkpoint_le hc⟩
  · intro policy fs hjob report tx hcall
    exact hjob.answer (Job.gives_process policy contract fs) hcall
  · intro e tx hcall
    obtain ⟨job, hjob⟩ := h.exists_inProgress hcall
    rcases hjob.error_isOrdinary hcall with hroot | ⟨expected, actual, hroot⟩
    · exact ⟨by simp [hroot], by simp [hroot]⟩
    · exact ⟨by simp [hroot], by simp [hroot]⟩

/-- A batch with one event twice has been processed, and the call leaves. -/
theorem checkpoint_coherent_after_process :
    let contract : ContractId := ⟨"C"⟩
    let first : RawEvent := ⟨contract, "NOTE", .null, 1, .epoch, .replicate 0, 0⟩
    let second : RawEvent := ⟨contract, "NOTE", .null, 2, .epoch, .replicate 0, 0⟩
    let job := Job.process ⟨3, 100, 2.0, 1000⟩ contract [first, second, first]
    let start : System MemorySource := ⟨World.start .empty .empty, fun _ => none⟩
    let s := start.finish contract job
    let left := { s with calls := Function.update s.calls contract none }
    s.Reachable ∧ InProgress contract job s ∧ Relation.ReflTransGen Step s left ∧
      (s.data contract).Coherent ∧
      (∃ c, (s.data contract).checkpoint = some c ∧ c.eventsApplied = 2 ∧
        ∃ c', (left.data contract).checkpoint = some c' ∧ c.position ≤ c'.position) ∧
      ∃ report tx, s.calls contract = some ⟨.done (.ok report), tx⟩ ∧
        report.alreadyLogged = 0 ∧ report.logConflicts = [] := by
  intro contract first second job start s left
  have hstart : start.Reachable := .start rfl
  have hjob : InProgress contract job s := .finish hstart rfl (.process _ _)
  have hleft : Relation.ReflTransGen Step s left := .single (.leave s contract)
  obtain ⟨hcoherent, hlater, hended, -⟩ := hjob.reachable.checkpoint_coherent contract
  have hcheckpoint : (s.data contract).checkpoint.map Checkpoint.eventsApplied = some 2 := by
    decide +kernel
  obtain ⟨c, hc, happlied⟩ := Option.map_eq_some_iff.mp hcheckpoint
  have hok : (start.world.perform job).1.toOption.isSome := by decide +kernel
  obtain ⟨tx, hcall⟩ := start.calls_finish contract job
  refine ⟨hjob.reachable, hjob, hleft, hcoherent, ⟨c, hc, happlied, (hlater left hleft).2 c hc⟩, ?_⟩
  cases hresult : (start.world.perform job).1 with
  | error e =>
    rw [hresult] at hok
    cases hok
  | ok report =>
    rw [hresult] at hcall
    exact ⟨report, tx, hcall, hended _ _ hjob report tx hcall⟩

end System

end EventIndex
