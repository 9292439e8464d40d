import EventIndex.Proofs.Indexer.Attempt

/-! # What is logged and what is dropped

Whatever is delivered in whatever order, the log of a contract is the sequence of the maxima of its
deliveries. A late event changes nothing and is reported by what is logged at its position. -/

namespace EventIndex

/-! ## Entries and reports -/

/-- The entry has the typed payload of its event, or the reason why there is none. -/
structure LogEntry.Decodes (x : LogEntry) : Prop where
  ok : ∀ d, decode (.classify x.topic) x.rawPayload x.position = .ok d →
    x.decodedPayload = d.payloadJson ∧ x.decodeError = none
  error : ∀ e, decode (.classify x.topic) x.rawPayload x.position = .error e →
    x.decodedPayload = none ∧ x.decodeError = some e.flaw.message
  unknown : ∀ name, Topic.classify x.topic = .unknown name →
    x.decodedPayload = none ∧ x.decodeError = none

namespace Partition

/-- The entry at the position of the event has the same content. -/
def logs (p : Partition) (e : RawEvent) : Bool :=
  p.log[e.position]?.any fun x =>
    x.topic = e.topic ∧ x.rawPayload = e.payload ∧ x.ledgerClosedAt = e.ledgerClosedAt

/-- The report counts dropped events by what is logged at their positions. -/
structure Classifies (p : Partition) (dropped : List RawEvent) (report : BatchReport) : Prop where
  replayed_eq : report.replayed = dropped.countP p.logs
  violations_eq : report.orderingViolations.map (fun v => (v.context, v.conflictsWithLog)) =
    (dropped.filter (!p.logs ·)).map fun e => (.of e, p.log[e.position]?.isSome)

end Partition

private theorem decode_unknown (name : String) (v : Json) (position : Position) :
    decode (.unknown name) v position = .ok (.unrecognized name v.text) := rfl

theorem LogEntry.decodes_ofEvent (e : RawEvent) (now : Timestamp) : (ofEvent e now).Decodes := by
  unfold ofEvent
  cases hd : decode (.classify e.topic) e.payload e.position with
  | error err =>
    refine ⟨fun d h => ?_, fun err' h => ?_, fun name h => ?_⟩
    · exact absurd (hd.symm.trans h) (by simp)
    · obtain rfl : err = err' := Except.error.inj (hd.symm.trans h)
      exact ⟨rfl, rfl⟩
    · have hname : Topic.classify e.topic = .unknown name := h
      simp [hname, decode_unknown] at hd
  | ok d =>
    refine ⟨fun d' h => ?_, fun err h => ?_, fun name h => ?_⟩
    · obtain rfl : d = d' := Except.ok.inj (hd.symm.trans h)
      exact ⟨rfl, rfl⟩
    · exact absurd (hd.symm.trans h) (by simp)
    · have hname : Topic.classify e.topic = .unknown name := h
      rw [hname, decode_unknown] at hd
      obtain rfl := Except.ok.inj hd
      exact ⟨rfl, rfl⟩

namespace Partition.Holds

variable {contract : ContractId} {p : Partition} {es : List RawEvent}

theorem decodes (h : p.Holds contract es) {x : LogEntry} (hx : x ∈ p.entries) : x.Decodes := by
  obtain ⟨position, hposition⟩ := OrderedMap.mem_values_iff.mp hx
  rw [h.log.entry_eq position x hposition]
  exact LogEntry.decodes_ofEvent x.toRaw x.createdAt

theorem logs_iff (h : p.Holds contract es) {e : RawEvent} (he : e.contract = contract) :
    p.logs e ↔ e ∈ es := by
  rw [h.log.mem_iff_exists]
  simp only [logs, Option.any_eq_true, decide_eq_true_eq]
  constructor
  · rintro ⟨x, hx, htopic, hpayload, hclosed⟩
    have hposition : x.position = e.position := h.log.position_eq e.position x hx
    have hlogged : p.log[x.toRaw.position]? = some x := by
      change p.log[x.position]? = some x
      rwa [hposition]
    have hcontract : x.contract = contract :=
      h.log.contract_eq x.toRaw (h.log.mem_iff_exists.mpr ⟨x, hlogged, rfl⟩)
    refine ⟨x, hx, ?_⟩
    rw [LogEntry.toRaw, hcontract, htopic, hpayload, hclosed, hposition, ← he]
    rfl
  · rintro ⟨x, hx, rfl⟩
    exact ⟨x, hx, rfl, rfl, rfl⟩

theorem classifies (h : p.Holds contract es) {dropped : List RawEvent} {report : BatchReport}
    (hdropped : ∀ e ∈ dropped, e.contract = contract) {n : Nat}
    (hdelivery : report.delivery =
      ((BatchReport.empty contract).delivery.indexedMore n).dropped es dropped) :
    p.Classifies dropped report where
  replayed_eq := by
    have hreplayed : report.replayed = dropped.countP (· ∈ es) := by
      simpa [BatchReport.delivery, Delivery.dropped, Delivery.indexedMore, BatchReport.empty]
        using congrArg Delivery.replayed hdelivery
    rw [hreplayed]
    apply List.countP_congr
    intro e he
    rw [h.logs_iff (hdropped e he)]
    simp
  violations_eq := by
    have hviolations : report.orderingViolations.map (fun v => (v.context, v.conflictsWithLog)) =
        (dropped.filter (· ∉ es)).map fun e => (.of e, es.any (·.position = e.position)) :=
      congrArg Delivery.violations hdelivery
    rw [hviolations]
    have hfilter : dropped.filter (· ∉ es) = dropped.filter (!p.logs ·) := by
      apply List.filter_congr
      intro e he
      rw [Bool.eq_iff_iff]
      simp [← h.logs_iff (hdropped e he)]
    rw [hfilter]
    apply List.map_congr_left
    intro e he
    rw [Prod.mk.injEq, Bool.eq_iff_iff, h.log.isSome_iff, List.any_eq_true]
    simp

end Partition.Holds

/-! ## Batches one after the other -/

namespace World

variable {ρ : Type} [EventSource ρ] {contract : ContractId}

/-- Processes batches one after the other, each in a transaction of its own. -/
def processAll (contract : ContractId) (w : World MemoryStore ρ) :
    List (List RawEvent) → List (Except IndexerError BatchReport) × World MemoryStore ρ
  | [] => ([], w)
  | b :: batches =>
    let first := w.transact contract (Batch.process contract b)
    let others := processAll contract first.2 batches
    (first.1 :: others.1, others.2)

private theorem processAll_spec (batches : List (List RawEvent)) {w : World MemoryStore ρ}
    {ds : List RawEvent} (h : (w.store.partition contract).Holds contract (maxima [] ds))
    (hcommit : w.store.commitFailures = 0)
    (hbatches : ∀ b ∈ batches, ∀ e ∈ b, e.contract = contract) :
    let run := w.processAll contract batches
    run.2.store.commitFailures = 0 ∧
      (run.2.store.partition contract).Holds contract (maxima [] (ds ++ batches.flatten)) ∧
      ∃ reports : List BatchReport, run.1 = reports.map .ok ∧
        ∀ (i : Nat) (b : List RawEvent) (report : BatchReport), batches[i]? = some b →
          reports[i]? = some report → ∃ n, report.delivery =
            ((BatchReport.empty contract).delivery.indexedMore n).dropped
              (maxima [] (ds ++ batches.flatten)) (late (ds ++ (batches.take i).flatten) b) := by
  induction batches generalizing w ds with
  | nil => exact ⟨hcommit, by simpa [processAll] using h, [], rfl, by simp⟩
  | cons b batches ih =>
    obtain ⟨report, hreport, hcommit'⟩ :=
      transact_process_of_contract h (hbatches b (by simp)) hcommit
    have hprocessed := transact_process_ok h hreport
    obtain ⟨hcommit'', hholds, reports, hreports, hothers⟩ :=
      ih hprocessed.holds_maxima hcommit' fun b' hb' => hbatches b' (by simp [hb'])
    rw [List.append_assoc] at hholds hothers
    rw [List.flatten_cons]
    refine ⟨hcommit'', hholds, report :: reports, ?_, ?_⟩
    · rw [processAll, hreport, hreports, List.map_cons]
    · intro i b' r hb hr
      cases i with
      | zero =>
        obtain rfl : b = b' := by simpa using hb
        obtain rfl : report = r := by simpa using hr
        have hlog : maxima [] ds ++ maxima (maxima [] ds) b <+:
            maxima [] (ds ++ (b ++ batches.flatten)) := by
          rw [maxima_append_maxima, ← List.append_assoc]
          exact maxima_isPrefix_append _ _
        rw [List.take_zero, List.flatten_nil, List.append_nil, ← late_maxima]
        exact ⟨_, hprocessed.delivery_eq _ hlog hholds.log.rising⟩
      | succ i =>
        rw [List.take_succ_cons, List.flatten_cons,
          ← List.append_assoc ds b (batches.take i).flatten]
        exact hothers i b' r (by simpa using hb) (by simpa using hr)

private theorem timeless_processAll_late {w : World MemoryStore ρ}
    {before after : List (List RawEvent)} {b b' : List RawEvent} {e : RawEvent}
    (h : (w.store.partition contract).Holds contract (maxima [] []))
    (hcommit : w.store.commitFailures = 0)
    (hwith : ∀ c ∈ before ++ (b ++ e :: b') :: after, ∀ f ∈ c, f.contract = contract)
    (hlate : ¬ e.After (before.flatten ++ b)) :
    ((w.processAll contract (before ++ (b ++ e :: b') :: after)).2.store.partition
        contract).timeless =
      ((w.processAll contract (before ++ (b ++ b') :: after)).2.store.partition
        contract).timeless := by
  have hwithout : ∀ c ∈ before ++ (b ++ b') :: after, ∀ f ∈ c, f.contract = contract := by
    simp only [List.forall_mem_append, List.forall_mem_cons] at hwith ⊢
    exact ⟨hwith.1, ⟨hwith.2.1.1, hwith.2.1.2.2⟩, hwith.2.2⟩
  obtain ⟨-, hholds, -⟩ := processAll_spec _ h hcommit hwith
  obtain ⟨-, hholds', -⟩ := processAll_spec _ h hcommit hwithout
  have hflatten : (before ++ (b ++ e :: b') :: after).flatten =
      before.flatten ++ b ++ e :: (b' ++ after.flatten) := by simp
  have hflatten' : (before ++ (b ++ b') :: after).flatten =
      before.flatten ++ b ++ (b' ++ after.flatten) := by simp
  have hlate' : ¬ e.After ([] ++ (before.flatten ++ b)) := hlate
  rw [List.nil_append, hflatten, maxima_append_late hlate'] at hholds
  rw [List.nil_append, hflatten'] at hholds'
  exact hholds.timeless_eq hholds'

/-- From an empty store on, all batches of a contract are committed. The log is the sequence of the
maxima of all deliveries, with what they were decoded to. The other deliveries change nothing: with
one less the data in the end are the same, but for times, and a batch of such deliveries leaves the
data as they are. Each is reported as a replay if the entry at its position has its content, and
else as out of order. -/
theorem processAll_from_empty {w : World MemoryStore ρ} (hempty : w.store = .empty)
    {batches : List (List RawEvent)} (hbatches : ∀ b ∈ batches, ∀ e ∈ b, e.contract = contract) :
    let run := w.processAll contract batches
    let committed := run.2.store.partition contract
    ∃ reports : List BatchReport, run.1 = reports.map .ok ∧
      committed.entries.map LogEntry.toRaw = maxima [] batches.flatten ∧
      (∀ x ∈ committed.entries, x.Decodes) ∧
      (∀ (i : Nat) (b : List RawEvent) (report : BatchReport), batches[i]? = some b →
        reports[i]? = some report →
          committed.Classifies (late (batches.take i).flatten b) report) ∧
      (∀ before b e b' after, batches = before ++ (b ++ e :: b') :: after →
        ¬ e.After (before.flatten ++ b) →
          committed.timeless = ((w.processAll contract
            (before ++ (b ++ b') :: after)).2.store.partition contract).timeless) ∧
      ∀ b : List RawEvent, (∀ e ∈ b, e.contract = contract ∧ ¬ e.After batches.flatten) →
        (run.2.transact contract (Batch.process contract b)).2.store.partition contract =
          committed := by
  intro run committed
  have hstart : (w.store.partition contract).Holds contract (maxima [] []) := by
    rw [hempty]
    exact .empty contract
  have hcommit : w.store.commitFailures = 0 := by
    rw [hempty]
    rfl
  obtain ⟨hcommit', hholds, reports, hreports, hdelivery⟩ :=
    processAll_spec batches hstart hcommit hbatches
  simp only [List.nil_append] at hholds hdelivery
  refine ⟨reports, hreports, hholds.entries_eq, fun x => hholds.decodes, ?_, ?_, ?_⟩
  · intro i b report hb hr
    obtain ⟨n, hn⟩ := hdelivery i b report hb hr
    refine hholds.classifies ?_ hn
    exact fun e he => hbatches b (List.mem_of_getElem? hb) e (mem_of_mem_late he)
  · rintro before b e b' after rfl hlate
    exact timeless_processAll_late hstart hcommit hbatches hlate
  · intro b hb
    obtain ⟨report, hreport, -⟩ :=
      transact_process_of_contract hholds (fun e he => (hb e he).1) hcommit'
    refine (transact_process_ok hholds hreport).eq_of_late fun e he => ?_
    rw [after_maxima]
    exact (hb e he).2

/-- A batch brings another event at a position that is taken, and one event again. -/
theorem processAll_from_empty_redelivered :
    let contract : ContractId := ⟨"C"⟩
    let first : RawEvent := ⟨contract, "NOTE", .null, 1, .epoch, .replicate 0, 0⟩
    let second : RawEvent := ⟨contract, "NOTE", .null, 2, .epoch, .replicate 0, 0⟩
    let other : RawEvent := { second with topic := "OTHER" }
    let run := (World.start .empty .empty : World MemoryStore MemorySource).processAll contract
      [[first, second], [other, first]]
    ∃ reports : List BatchReport, run.1 = reports.map .ok ∧
      (run.2.store.partition contract).entries.map LogEntry.toRaw = [first, second] ∧
      ∀ report, reports[1]? = some report → report.replayed = 1 ∧
        report.orderingViolations.map (fun v => (v.context, v.conflictsWithLog)) =
          [(.of other, true)] := by
  intro contract first second other run
  have hbatches : ∀ b ∈ [[first, second], [other, first]], ∀ e ∈ b, e.contract = contract := by
    simp [first, second, other]
  obtain ⟨reports, hreports, hlog, -, hclassifies, -⟩ :=
    (World.start .empty .empty : World MemoryStore MemorySource).processAll_from_empty rfl hbatches
  have hmaxima : maxima [] [[first, second], [other, first]].flatten = [first, second] := by decide
  refine ⟨reports, hreports, hlog.trans hmaxima, ?_⟩
  intro report hreport
  obtain ⟨hreplayed, hviolations⟩ := hclassifies 1 [other, first] report rfl hreport
  have hlate : late (([[first, second], [other, first]].take 1).flatten) [other, first] =
      [other, first] := by decide
  rw [hlate] at hreplayed hviolations
  have hcount : [other, first].countP (run.2.store.partition contract).logs = 1 := by
    decide +kernel
  have hother : ([other, first].filter (!(run.2.store.partition contract).logs ·)).map
      (fun e => (EventContext.of e, (run.2.store.partition contract).log[e.position]?.isSome)) =
      [(.of other, true)] := by decide +kernel
  exact ⟨hreplayed.trans hcount, hviolations.trans hother⟩

end World

end EventIndex
