import EventIndex.Proofs.Indexer.Attempt
import Mathlib.Data.List.Induction

/-! # Exactly-once indexing

Events are delivered at least once, in attempts that may fail. What is committed in the end is what
one batch without repetitions gives. -/

namespace EventIndex

/-! ## Attempts -/

/-- An attempt at a batch or at a rebuild, and what came of it. -/
inductive Attempt where
  | process (events : List RawEvent) (result : Except IndexerError BatchReport)
  | rebuild (result : Except IndexerError BatchReport)

namespace Attempt

def result : Attempt → Except IndexerError BatchReport
  | process _ r => r
  | rebuild r => r

/-- The events of a batch, if it was committed. -/
def delivered : Attempt → List RawEvent
  | process es (.ok _) => es
  | _ => []

@[simp] theorem delivered_rebuild (r : Except IndexerError BatchReport) :
    (rebuild r).delivered = [] := rfl

/-- The events that a committed batch added to the log. -/
def indexed : Attempt → Nat
  | process _ (.ok report) => report.indexed
  | _ => 0

@[simp] theorem indexed_rebuild (r : Except IndexerError BatchReport) :
    (rebuild r).indexed = 0 := rfl

end Attempt

/-- The attempts at a contract that has no data, one after the other. Between them the process may
start anew, with or without an attempt that is broken off, and commits may be made to fail; only the
data of the contract stay. -/
inductive Attempts {ρ : Type} [EventSource ρ] (contract : ContractId) :
    World MemoryStore ρ → List Attempt → Prop
  | start {w : World MemoryStore ρ} (hempty : w.store.partition contract = ∅) :
    Attempts contract w []
  | process {w : World MemoryStore ρ} {as : List Attempt} (h : Attempts contract w as)
    (es : List RawEvent) :
    Attempts contract (w.transact contract (Batch.process contract es)).2
      (as ++ [.process es (w.transact contract (Batch.process contract es)).1])
  | rebuild {w : World MemoryStore ρ} {as : List Attempt} (h : Attempts contract w as) :
    Attempts contract (w.transact contract (Batch.rebuild contract)).2
      (as ++ [.rebuild (w.transact contract (Batch.rebuild contract)).1])
  | surroundings {w w' : World MemoryStore ρ} {as : List Attempt} (h : Attempts contract w as)
    (hdata : w'.store.partition contract = w.store.partition contract) : Attempts contract w' as

/-- All committed deliveries. -/
def deliveries (as : List Attempt) : List RawEvent :=
  as.flatMap Attempt.delivered

/-- How many events the committed batches added to the log. -/
def indexedTotal : List Attempt → Nat
  | [] => 0
  | a :: as => a.indexed + indexedTotal as

section

variable (as : List Attempt) (a : Attempt)

private theorem deliveries_append : deliveries (as ++ [a]) = deliveries as ++ a.delivered := by
  simp [deliveries]

private theorem indexedTotal_append : indexedTotal (as ++ [a]) = indexedTotal as + a.indexed := by
  induction as with
  | nil => simp [indexedTotal]
  | cons b as ih => simp only [List.cons_append, indexedTotal, ih, Nat.add_assoc]

end

/-! ## Deliveries of a source -/

/-- The deliveries are of events of the source. An event is first delivered after all events that
precede it in the source. -/
structure Delivers (source ds : List RawEvent) : Prop where
  mem : ∀ e ∈ ds, e ∈ source
  first_after : ∀ (i : Nat) (h : i < ds.length), ds[i] ∉ ds.take i →
    ∀ f ∈ source, f.position < ds[i].position → f ∈ ds.take i

namespace Delivers

variable {source ds es : List RawEvent}

theorem of_append (h : Delivers source (ds ++ es)) : Delivers source ds where
  mem e he := h.mem e (List.mem_append_left es he)
  first_after := by
    intro i hi hnew
    have hi' : i < (ds ++ es).length := by
      rw [List.length_append]
      omega
    have hget : (ds ++ es)[i] = ds[i] := List.getElem_append_left hi
    have htake : (ds ++ es).take i = ds.take i := List.take_append_of_le_length hi.le
    have hafter := h.first_after i hi'
    rw [hget, htake] at hafter
    exact hafter hnew

private theorem last_after {e : RawEvent} (h : Delivers source (ds ++ [e])) (hnew : e ∉ ds) :
    ∀ f ∈ source, f.position < e.position → f ∈ ds := by
  have hafter := h.first_after ds.length (by simp)
  simpa [hnew] using hafter

/-- The maxima of the deliveries are the delivered events, and these begin the source. -/
theorem maxima_spec (h : Delivers source ds) (hsource : Rising source) :
    maxima [] ds <+: source ∧ ∀ e, e ∈ maxima [] ds ↔ e ∈ ds := by
  induction ds using List.reverseRecOn with
  | nil =>
    refine ⟨?_, fun e => Iff.rfl⟩
    exact List.nil_prefix
  | append_singleton ds e ih =>
    obtain ⟨hbegins, hmem⟩ := ih h.of_append
    rw [maxima_append, List.nil_append]
    by_cases he : e ∈ ds
    · -- The event was delivered before, so it is not after all deliveries.
      have hlate : ¬ e.After ds := fun hafter => lt_irrefl e.position (hafter e he)
      rw [maxima_cons_of_not_after hlate, maxima, List.append_nil]
      refine ⟨hbegins, fun f => ?_⟩
      rw [hmem, List.mem_append, List.mem_singleton]
      exact (or_iff_left_of_imp fun hf => hf ▸ he).symm
    · -- All that precede the event were delivered, so it is the next one of the source.
      obtain ⟨rest, rfl⟩ := hbegins
      have hrest : e ∈ rest := by
        rcases List.mem_append.mp (h.mem e (by simp)) with hmaxima | hrest
        · exact absurd ((hmem e).mp hmaxima) he
        · exact hrest
      have hafter : e.After ds := fun f hf =>
        hsource.lt_of_mem_append ((hmem f).mpr hf) hrest
      obtain ⟨next, rest, rfl⟩ := List.exists_cons_of_ne_nil (List.ne_nil_of_mem hrest)
      have hnext : e = next := by
        rcases List.mem_cons.mp hrest with rfl | hlater
        · rfl
        · have hlt : next.position < e.position :=
            (List.pairwise_cons.mp (hsource.sublist (List.sublist_append_right _ _))).1 e hlater
          have hdelivered : next ∈ maxima [] ds :=
            (hmem next).mpr (h.last_after he next (by simp) hlt)
          exact absurd (hsource.lt_of_mem_append hdelivered List.mem_cons_self)
            (lt_irrefl next.position)
      subst hnext
      rw [maxima_cons_of_after hafter, maxima]
      refine ⟨⟨rest, by simp⟩, fun f => ?_⟩
      rw [List.mem_append, List.mem_append, hmem]

end Delivers

/-! ## What the attempts come to -/

namespace BatchReport

/-- No event was out of order, and none met another one in the log. -/
def InOrder (r : BatchReport) : Prop :=
  r.orderingViolations = [] ∧ r.logConflicts = []

private theorem inOrder_of_delivery {r : BatchReport} (hviolations : r.delivery.violations = [])
    (hconflicts : r.delivery.logConflicts = []) : r.InOrder :=
  ⟨List.map_eq_nil_iff.mp hviolations, hconflicts⟩

end BatchReport

namespace Processed

variable {contract : ContractId} {ds es source : List RawEvent} {p p' : Partition}
  {report : BatchReport}

/-- As long as first deliveries come in order, every late event is in the log. -/
theorem inOrder (h : Processed contract (maxima [] ds) es p report p') (hsource : Rising source)
    (hds : Delivers source (ds ++ es)) :
    report.InOrder ∧ report.indexed = (maxima ds es).length := by
  have hlog : maxima [] ds ++ maxima (maxima [] ds) es <+: maxima [] (ds ++ es) :=
    ⟨[], by rw [List.append_nil, maxima_append_maxima]⟩
  have hdelivery := h.delivery_eq _ hlog h.holds_maxima.log.rising
  have hlate : (late (maxima [] ds) es).filter (· ∉ maxima [] (ds ++ es)) = [] := by
    rw [List.filter_eq_nil_iff]
    intro e he
    have hmem : e ∈ maxima [] (ds ++ es) :=
      ((hds.maxima_spec hsource).2 e).mpr (List.mem_append_right ds (mem_of_mem_late he))
    simpa using hmem
  refine ⟨BatchReport.inOrder_of_delivery ?_ ?_, ?_⟩
  · rw [hdelivery, Delivery.dropped, hlate]
    rfl
  · rw [hdelivery]
    rfl
  · have hindexed := congrArg Delivery.indexed hdelivery
    rw [maxima_maxima] at hindexed
    simpa [BatchReport.delivery, Delivery.dropped, Delivery.indexedMore, BatchReport.empty]
      using hindexed

end Processed

namespace Attempts

variable {ρ : Type} [EventSource ρ] {contract : ContractId} {w : World MemoryStore ρ}
  {as : List Attempt} {source : List RawEvent}

theorem holds (h : Attempts contract w as) :
    (w.store.partition contract).Holds contract (maxima [] (deliveries as)) := by
  induction h with
  | start hempty =>
    rw [hempty]
    exact .empty contract
  | @process w as h es ih =>
    rw [deliveries_append]
    cases hr : (w.transact contract (Batch.process contract es)).1 with
    | error e =>
      have hsame := World.transact_error hr
      simpa [Attempt.delivered, MemoryStore.partition, hsame] using ih
    | ok report => exact (World.transact_process_ok ih hr).holds_maxima
  | @rebuild w as h ih =>
    rw [deliveries_append, Attempt.delivered_rebuild, List.append_nil]
    cases hr : (w.transact contract (Batch.rebuild contract)).1 with
    | error e =>
      have hsame := World.transact_error hr
      simpa [MemoryStore.partition, hsame] using ih
    | ok report => exact (World.transact_rebuild_ok ih hr).holds
  | surroundings h hdata ih => rwa [hdata]

theorem inOrder (h : Attempts contract w as) (hsource : Rising source)
    (hds : Delivers source (deliveries as)) :
    (∀ a ∈ as, ∀ report, a.result = .ok report → report.InOrder) ∧
      indexedTotal as = (maxima [] (deliveries as)).length := by
  induction h with
  | start hempty => exact ⟨by simp, rfl⟩
  | @process w as h es ih =>
    rw [deliveries_append] at hds ⊢
    obtain ⟨hreports, htotal⟩ := ih hds.of_append
    rw [indexedTotal_append, htotal, maxima_append, List.nil_append, List.length_append,
      List.forall_mem_append, List.forall_mem_singleton]
    cases hr : (w.transact contract (Batch.process contract es)).1 with
    | error e =>
      refine ⟨⟨hreports, ?_⟩, by simp [Attempt.delivered, Attempt.indexed, maxima]⟩
      rintro report ⟨⟩
    | ok report =>
      rw [hr] at hds
      obtain ⟨hinOrder, hindexed⟩ := (World.transact_process_ok h.holds hr).inOrder hsource hds
      refine ⟨⟨hreports, ?_⟩, ?_⟩
      · rintro _ ⟨⟩
        exact hinOrder
      · rw [Attempt.indexed, Attempt.delivered, hindexed]
  | @rebuild w as h ih =>
    rw [deliveries_append, Attempt.delivered_rebuild, List.append_nil] at hds ⊢
    obtain ⟨hreports, htotal⟩ := ih hds
    rw [List.forall_mem_append, List.forall_mem_singleton]
    refine ⟨⟨hreports, ?_⟩, by simpa [indexedTotal_append] using htotal⟩
    intro report hr
    have hdelivery := (World.transact_rebuild_ok h.holds hr).delivery_eq
    exact BatchReport.inOrder_of_delivery (by rw [hdelivery]; rfl) (by rw [hdelivery]; rfl)
  | surroundings h hdata ih => exact ih hds

/-- However often events are delivered, attempts fail and rows are rebuilt: the data in the end are,
but for times, those that one batch of the delivered events gives, in the order of the source. All
committed attempts are in order, and every delivered event is indexed once. -/
theorem exactly_once (h : Attempts contract w as) (hsource : Rising source)
    (hds : Delivers source (deliveries as)) :
    ∃ es, es <+: source ∧ (∀ e, e ∈ es ↔ e ∈ deliveries as) ∧
      (∀ w₀ : World MemoryStore ρ, w₀.store = .empty →
        let once := w₀.transact contract (Batch.process contract es)
        (∃ report, once.1 = .ok report) ∧
          (w.store.partition contract).timeless = (once.2.store.partition contract).timeless) ∧
      (∀ a ∈ as, ∀ report, a.result = .ok report → report.InOrder) ∧
      indexedTotal as = es.length := by
  obtain ⟨hbegins, hmem⟩ := hds.maxima_spec hsource
  obtain ⟨hreports, htotal⟩ := h.inOrder hsource hds
  refine ⟨maxima [] (deliveries as), hbegins, hmem, ?_, hreports, htotal⟩
  have hholds := h.holds
  have hmaxima : maxima [] (maxima [] (deliveries as)) = maxima [] (deliveries as) :=
    Rising.maxima_eq hholds.log.rising
  generalize maxima [] (deliveries as) = es at hholds hmaxima
  intro w₀ hempty
  dsimp only
  have hstart : (w₀.store.partition contract).Holds contract [] := by
    rw [hempty]
    exact .empty contract
  obtain ⟨report, hreport, -⟩ :=
    World.transact_process_of_contract hstart hholds.log.contract_eq (by rw [hempty]; rfl)
  have honce := (World.transact_process_ok hstart hreport).holds
  rw [List.nil_append, hmaxima] at honce
  exact ⟨⟨report, hreport⟩, hholds.timeless_eq honce⟩

/-- A second event is delivered in a batch whose commit fails, and once more. -/
theorem exactly_once_after_failed_commit :
    let contract : ContractId := ⟨"C"⟩
    let first : RawEvent := ⟨contract, "NOTE", .null, 1, .epoch, .replicate 0, 0⟩
    let second : RawEvent := ⟨contract, "NOTE", .null, 2, .epoch, .replicate 0, 0⟩
    let attempt (w : World MemoryStore MemorySource) (es : List RawEvent) :=
      w.transact contract (Batch.process contract es)
    let r₁ := attempt (World.start .empty .empty) [first]
    let r₂ := attempt { r₁.2 with store := r₁.2.store.failCommits 1 } [first, second]
    let r₃ := attempt r₂.2 [first, second, first]
    let as : List Attempt := [.process [first] r₁.1, .process [first, second] r₂.1,
      .process [first, second, first] r₃.1]
    deliveries as = [first, first, second, first] ∧ ∃ es, es <+: [first, second] ∧
      (∀ e, e ∈ es ↔ e ∈ deliveries as) ∧ indexedTotal as = es.length := by
  intro contract first second attempt r₁ r₂ r₃ as
  have hstart : Attempts contract (World.start .empty .empty : World MemoryStore MemorySource) [] :=
    .start rfl
  have h₁ : Attempts contract r₁.2 [.process [first] r₁.1] := hstart.process [first]
  have hattempts : Attempts contract r₃.2 as := by
    clear_value r₁
    have hfailing : Attempts contract { r₁.2 with store := r₁.2.store.failCommits 1 }
        [.process [first] r₁.1] := h₁.surroundings (MemoryStore.partition_failCommits _ _ _)
    exact (hfailing.process [first, second]).process [first, second, first]
  have hlt : first.position < second.position := by decide
  have hsource : Rising [first, second] := by simp [Rising, hlt]
  have hall : deliveries as = [first, first, second, first] := by decide +kernel
  have hds : Delivers [first, second] (deliveries as) := by
    rw [hall]
    exact ⟨by decide, by decide⟩
  obtain ⟨es, hbegins, hmem, -, -, htotal⟩ := hattempts.exactly_once hsource hds
  exact ⟨hall, es, hbegins, hmem, htotal⟩

end Attempts

end EventIndex
