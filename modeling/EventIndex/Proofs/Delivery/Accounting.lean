import EventIndex.Proofs.Batch.Growth
import EventIndex.Proofs.Batch.Reach
import EventIndex.Proofs.Indexer.Transaction

/-! # The account of a batch

Every event of a batch is dropped or advances the checkpoint, and one that advances it is submitted
to the log and counted by what it did. The report, the checkpoint and the log agree on these events,
whatever the data were before. -/

namespace EventIndex

theorem Tracker.reached?_eq_none_iff_isAhead (t : Tracker) (e : RawEvent) :
    t.reached? e.position = none ↔ e.isAhead t.position := by
  rw [reached?, RawEvent.isAhead]
  cases t.position with
  | none => simp
  | some q => simp [Option.filter_eq_none_iff]

/-! ## The counts of a report -/

namespace BatchReport

/-- The events that did not advance the checkpoint. -/
def dropped (r : BatchReport) : Nat :=
  r.replayed + r.orderingViolations.length

/-- The events that the log was to record. -/
def submitted (r : BatchReport) : Nat :=
  r.indexed + r.alreadyLogged + r.logConflicts.length

theorem advanced_count (r : BatchReport) (context : EventContext)
    (answer : Except Refusal Applied) : (r.count context answer).advanced = r.advanced + 1 := by
  rcases answer with refusal | applied
  · simp only [count, advanced, List.length_append, List.length_singleton]
    omega
  · cases applied <;> simp only [count, advanced] <;> omega

end BatchReport

namespace Course

section Counts

variable (s : Course) (checkpoint : Position) (e : RawEvent) (now : Timestamp)

theorem counts_drop :
    (s.drop checkpoint e).report.dropped = s.report.dropped + 1 ∧
      (s.drop checkpoint e).report.advanced = s.report.advanced ∧
      (s.drop checkpoint e).report.submitted = s.report.submitted := by
  simp only [drop]
  split
  · exact ⟨Nat.add_right_comm .., rfl, rfl⟩
  · exact ⟨by simp [BatchReport.dropped, Nat.add_assoc], rfl, rfl⟩

theorem counts_project :
    (s.project e).report.dropped = s.report.dropped ∧
      (s.project e).report.advanced = s.report.advanced + 1 ∧
      (s.project e).report.submitted = s.report.submitted := by
  have hdelivery := s.delivery_project e
  simp only [BatchReport.delivery, Delivery.mk.injEq] at hdelivery
  obtain ⟨hindexed, hlogged, hreplayed, hviolations, hconflicts⟩ := hdelivery
  have hlength := congrArg List.length hviolations
  simp only [List.length_map] at hlength
  refine ⟨?_, ?_, ?_⟩
  · simp only [BatchReport.dropped, hreplayed, hlength]
  · simp only [project]
    split
    · simp only [BatchReport.advanced, List.length_append, List.length_singleton]
      omega
    · exact BatchReport.advanced_count ..
  · simp only [BatchReport.submitted, hindexed, hlogged, hconflicts]

theorem counts_index :
    (s.index e now).report.dropped = s.report.dropped ∧
      (s.index e now).report.advanced = s.report.advanced + 1 ∧
      (s.index e now).report.submitted = s.report.submitted + 1 := by
  simp only [index]
  split
  · obtain ⟨hdropped, hadvanced, hsubmitted⟩ := (s.append e now).counts_project e
    refine ⟨hdropped, hadvanced, hsubmitted.trans ?_⟩
    simp only [append, BatchReport.submitted]
    omega
  · split
    · obtain ⟨hdropped, hadvanced, hsubmitted⟩ := s.recognize.counts_project e
      refine ⟨hdropped, hadvanced, hsubmitted.trans ?_⟩
      simp only [recognize, BatchReport.submitted]
      omega
    · refine ⟨rfl, ?_, ?_⟩
      · simp [refuse, BatchReport.advanced, Nat.add_assoc]
      · simp [refuse, BatchReport.submitted, Nat.add_assoc]

end Counts

/-! ## Events one after the other -/

section Run

variable {s : Course} {x : RawEvent × Timestamp}

theorem take_of_isAhead (h : x.1.isAhead s.tracker.position) :
    s.take x = (s.see.index x.1 x.2).advance x.1.position := by
  simp only [take, (s.tracker.reached?_eq_none_iff_isAhead x.1).mpr h]

theorem take_of_not_isAhead (h : ¬ x.1.isAhead s.tracker.position) :
    ∃ checkpoint, s.tracker.position = some checkpoint ∧ x.1.position ≤ checkpoint ∧
      s.take x = s.see.drop checkpoint x.1 := by
  rw [← s.tracker.reached?_eq_none_iff_isAhead] at h
  obtain ⟨checkpoint, hr⟩ := Option.ne_none_iff_exists'.mp h
  obtain ⟨hposition, hle⟩ := Option.filter_eq_some_iff.mp hr
  exact ⟨checkpoint, hposition, by simpa using hle, by simp only [take, hr]⟩

/-- Of the events taken, those that do not advance the checkpoint are dropped, and those that do are
submitted to the log. -/
theorem counts_takeAll (s : Course) (xs : List (RawEvent × Timestamp)) :
    let n := (advancing s.tracker.position (xs.map Prod.fst)).length
    (s.takeAll xs).report.dropped + n = s.report.dropped + xs.length ∧
      (s.takeAll xs).report.advanced = s.report.advanced + n ∧
      (s.takeAll xs).report.submitted = s.report.submitted + n := by
  induction xs generalizing s with
  | nil => exact ⟨rfl, rfl, rfl⟩
  | cons x xs ih =>
    obtain ⟨hdropped, hadvanced, hsubmitted⟩ := ih (s.take x)
    rw [takeAll_cons, List.map_cons, List.length_cons]
    by_cases hx : x.1.isAhead s.tracker.position
    · obtain ⟨hd, ha, hs⟩ : _ = s.report.dropped ∧ _ = s.report.advanced + 1 ∧
          _ = s.report.submitted + 1 := s.see.counts_index x.1 x.2
      rw [take_of_isAhead hx] at hdropped hadvanced hsubmitted ⊢
      simp only [advance, hd, ha, hs] at hdropped hadvanced hsubmitted ⊢
      rw [advancing_cons_of_isAhead hx, List.length_cons]
      omega
    · obtain ⟨checkpoint, -, -, htake⟩ := take_of_not_isAhead hx
      obtain ⟨hd, ha, hs⟩ : _ = s.report.dropped + 1 ∧ _ = s.report.advanced ∧
          _ = s.report.submitted := s.see.counts_drop checkpoint x.1
      rw [htake] at hdropped hadvanced hsubmitted ⊢
      simp only [hd, ha, hs, tracker_drop, tracker_see] at hdropped hadvanced hsubmitted ⊢
      rw [advancing_cons_of_not_isAhead hx]
      omega

theorem eventsApplied_takeAll (s : Course) (xs : List (RawEvent × Timestamp)) :
    (s.takeAll xs).tracker.eventsApplied.toNat =
      min (s.tracker.eventsApplied.toNat +
        (advancing s.tracker.position (xs.map Prod.fst)).length) (UInt64.size - 1) := by
  induction xs generalizing s with
  | nil =>
    have hlt := s.tracker.eventsApplied.toNat_lt_size
    simp only [takeAll_nil, List.map_nil, advancing, List.filter_nil, maxima, List.length_nil]
    omega
  | cons x xs ih =>
    have hcount := ih (s.take x)
    rw [takeAll_cons, List.map_cons]
    by_cases hx : x.1.isAhead s.tracker.position
    · have hup : (Tracker.countUp s.tracker.eventsApplied).toNat =
          min (s.tracker.eventsApplied.toNat + 1) (UInt64.size - 1) := Tracker.toNat_countOf _
      rw [take_of_isAhead hx] at hcount ⊢
      simp only [advance, tracker_index, tracker_see, hup] at hcount ⊢
      rw [advancing_cons_of_isAhead hx, List.length_cons]
      omega
    · obtain ⟨checkpoint, -, -, htake⟩ := take_of_not_isAhead hx
      rw [htake, tracker_drop, tracker_see] at hcount
      rw [advancing_cons_of_not_isAhead hx, htake, hcount]

theorem position_take (s : Course) (x : RawEvent × Timestamp) :
    (s.take x).tracker.position = (s.tracker.position.toList ++ [x.1.position]).max? := by
  by_cases hx : x.1.isAhead s.tracker.position
  · rw [take_of_isAhead hx]
    cases h : s.tracker.position with
    | none => rfl
    | some q =>
      have hlt : q < x.1.position := RawEvent.isAhead_some.mp (h ▸ hx)
      exact congrArg some (max_eq_right hlt.le).symm
  · obtain ⟨checkpoint, h, hle, htake⟩ := take_of_not_isAhead hx
    rw [htake, tracker_drop, tracker_see, h]
    exact congrArg some (max_eq_left hle).symm

theorem position_takeAll (s : Course) (xs : List (RawEvent × Timestamp)) :
    (s.takeAll xs).tracker.position =
      (s.tracker.position.toList ++ xs.map (·.1.position)).max? := by
  induction xs generalizing s with
  | nil => cases h : s.tracker.position <;> simp [h]
  | cons x xs ih =>
    rw [takeAll_cons, ih, position_take]
    cases s.tracker.position <;> rfl

end Run

/-! ## The log -/

section Log

variable (s : Course) {e : RawEvent} (now : Timestamp)

theorem log_index_of_free (h : s.data.log[e.position]? = none) :
    (s.index e now).data.log = s.data.log.insert e.position (.ofEvent e now) ∧
      (s.index e now).report.indexed = s.report.indexed + 1 := by
  have hdelivery := (s.append e now).delivery_project e
  simp only [index, h]
  exact ⟨by rw [log_project]; rfl, congrArg Delivery.indexed hdelivery⟩

theorem log_index_of_taken (h : s.data.log[e.position]? ≠ none) :
    (s.index e now).data.log = s.data.log ∧
      (s.index e now).report.indexed = s.report.indexed := by
  obtain ⟨old, hold⟩ := Option.ne_none_iff_exists'.mp h
  have hdelivery := s.recognize.delivery_project e
  simp only [index, hold]
  split
  · exact ⟨log_project _ _, congrArg Delivery.indexed hdelivery⟩
  · exact ⟨rfl, rfl⟩

end Log

end Course

/-- The events that advance the checkpoint and find their places in the log free. -/
def additions (log : Std.ExtTreeMap Position LogEntry) (checkpoint : Option Position)
    (es : List RawEvent) : List RawEvent :=
  (advancing checkpoint es).filter fun e => log[e.position]?.isNone

section Additions

variable {log : Std.ExtTreeMap Position LogEntry} {checkpoint : Option Position} {e : RawEvent}

theorem additions_insert (log : Std.ExtTreeMap Position LogEntry) (p : Position) (x : LogEntry)
    (es : List RawEvent) : additions (log.insert p x) (some p) es = additions log (some p) es := by
  refine List.filter_congr fun e he => ?_
  have hlt : p < e.position := RawEvent.isAhead_some.mp (isAhead_of_mem_advancing he)
  rw [Std.ExtTreeMap.getElem?_insert, if_neg]
  simpa using hlt.ne

theorem additions_cons_of_free (h : e.isAhead checkpoint) (hfree : log[e.position]? = none)
    (x : LogEntry) (es : List RawEvent) :
    additions log checkpoint (e :: es) =
      e :: additions (log.insert e.position x) (some e.position) es := by
  rw [additions_insert, additions, advancing_cons_of_isAhead h,
    List.filter_cons_of_pos (by simp [hfree]), additions]

theorem additions_cons_of_taken (h : e.isAhead checkpoint) (htaken : log[e.position]? ≠ none)
    (es : List RawEvent) :
    additions log checkpoint (e :: es) = additions log (some e.position) es := by
  rw [additions, advancing_cons_of_isAhead h, List.filter_cons_of_neg (by simpa using htaken),
    additions]

theorem additions_cons_of_not_isAhead (h : ¬ e.isAhead checkpoint) (es : List RawEvent) :
    additions log checkpoint (e :: es) = additions log checkpoint es := by
  rw [additions, advancing_cons_of_not_isAhead h, additions]

end Additions

/-- The entries of events, each seen at its time. -/
def entriesOf (es : List RawEvent) (times : List Timestamp) : List (Position × LogEntry) :=
  List.zipWith (fun e now => (e.position, .ofEvent e now)) es times

theorem Course.log_takeAll (s : Course) (xs : List (RawEvent × Timestamp)) :
    let new := additions s.data.log s.tracker.position (xs.map Prod.fst)
    (s.takeAll xs).report.indexed = s.report.indexed + new.length ∧
      ∃ times, times.length = new.length ∧
        (s.takeAll xs).data.log = s.data.log.insertMany (entriesOf new times) := by
  induction xs generalizing s with
  | nil => exact ⟨rfl, [], rfl, rfl⟩
  | cons x xs ih =>
    obtain ⟨e, now⟩ := x
    obtain ⟨hindexed, times, htimes, hlog⟩ := ih (s.take (e, now))
    rw [takeAll_cons, List.map_cons]
    by_cases hx : e.isAhead s.tracker.position
    · rw [take_of_isAhead (x := (e, now)) hx] at hindexed htimes hlog ⊢
      by_cases hfree : s.data.log[e.position]? = none
      · obtain ⟨hdata, hone⟩ : _ = s.data.log.insert e.position (.ofEvent e now) ∧
            _ = s.report.indexed + 1 := s.see.log_index_of_free now hfree
        simp only [advance, hdata, hone] at hindexed htimes hlog ⊢
        rw [additions_cons_of_free hx hfree (.ofEvent e now)]
        refine ⟨?_, now :: times, ?_, ?_⟩
        · rw [hindexed, List.length_cons, Nat.add_right_comm, Nat.add_assoc]
        · rw [List.length_cons, List.length_cons, htimes]
        · rw [hlog, entriesOf, entriesOf, List.zipWith_cons_cons, Std.ExtTreeMap.insertMany_cons]
      · obtain ⟨hdata, hsame⟩ : _ = s.data.log ∧ _ = s.report.indexed :=
          s.see.log_index_of_taken now hfree
        simp only [advance, hdata, hsame] at hindexed htimes hlog ⊢
        rw [additions_cons_of_taken hx hfree]
        exact ⟨hindexed, times, htimes, hlog⟩
    · obtain ⟨checkpoint, -, -, htake⟩ := take_of_not_isAhead (x := (e, now)) hx
      have hsame : (s.see.drop checkpoint e).report.indexed = s.report.indexed := by
        simp only [drop]
        split <;> rfl
      rw [htake] at hindexed htimes hlog ⊢
      simp only [data_drop, data_see, tracker_drop, tracker_see, hsame] at hindexed htimes hlog
      rw [additions_cons_of_not_isAhead hx]
      exact ⟨hindexed, times, htimes, hlog⟩

/-! ## Whole batches -/

def Partition.eventsApplied (p : Partition) : UInt64 :=
  (p.checkpoint.map Checkpoint.eventsApplied).getD 0

theorem Partition.eventsApplied_resume (p : Partition) (contract : ContractId) :
    (Tracker.resume contract p.checkpoint).eventsApplied = p.eventsApplied := by
  cases h : p.checkpoint <;> simp [eventsApplied, h, Tracker.resume, Tracker.start]

/-- The account of a batch of the events `es`, which takes the data from `p` to `p'`. -/
structure Accounted (p : Partition) (es : List RawEvent) (r : BatchReport) (p' : Partition) :
    Prop where
  seen_eq : r.eventsSeen = es.length
  /-- An event is replayed, out of order, or advances the checkpoint. -/
  seen_sum : r.eventsSeen = r.replayed + r.orderingViolations.length + r.advanced
  /-- An event that advances the checkpoint is new to the log, known to it, or refused by it. -/
  submitted_sum : r.indexed + r.alreadyLogged + r.logConflicts.length = r.advanced
  /-- It is projected with some outcome, unless it cannot be decoded or is refused by the log. -/
  applied_sum : r.advanced = r.written + r.unchanged + r.ignored + r.decodeFailures.length +
    r.rejected.length + r.logConflicts.length
  advanced_eq : r.advanced = (advancing p.position? es).length
  eventsApplied_eq :
    p'.eventsApplied.toNat = min (p.eventsApplied.toNat + r.advanced) (UInt64.size - 1)
  lastPosition_eq : r.lastPosition = (p.position?.toList ++ es.map RawEvent.position).max?
  position?_eq : p'.position? = r.lastPosition
  indexed_eq : r.indexed = (additions p.log p.position? es).length
  /-- Just the indexed events are added to the log, each at its place. -/
  log_eq : ∃ times, times.length = r.indexed ∧
    p'.log = p.log.insertMany (entriesOf (additions p.log p.position? es) times)

theorem Partition.accounted_process (p : Partition) (contract : ContractId) {es : List RawEvent}
    {times : List Timestamp} (htimes : times.length = es.length) (now : Timestamp) :
    let processed := p.process contract (es.zip times) now
    Accounted p es processed.1 processed.2 := by
  intro processed
  let start := Course.start contract p
  let xs := es.zip times
  have hfst : xs.map Prod.fst = es := List.map_fst_zip htimes.ge
  have hpositions : xs.map (·.1.position) = es.map RawEvent.position := by
    rw [← hfst, List.map_map]
    rfl
  have hlength : xs.length = es.length := by rw [List.length_zip, htimes, min_self]
  have hposition : start.tracker.position = p.position? := p.position_resume contract
  have happlied : start.tracker.eventsApplied = p.eventsApplied := p.eventsApplied_resume contract
  have htracked := (Course.Tracked.start contract p).takeAll xs
  have hresume : Tracker.resume contract processed.2.checkpoint = _ := htracked.resume_finish now
  have hseen : processed.1.eventsSeen = xs.length := p.eventsSeen_process contract xs now
  obtain ⟨hdropped, hadvanced, hsubmitted⟩ : processed.1.dropped + _ = 0 + _ ∧
      processed.1.advanced = 0 + _ ∧ processed.1.submitted = 0 + _ := start.counts_takeAll xs
  have hcount := start.eventsApplied_takeAll xs
  obtain ⟨hindexed, dates, hdates, hlog⟩ : processed.1.indexed = 0 + _ ∧ ∃ dates, _ ∧ _ :=
    start.log_takeAll xs
  rw [hposition, hfst] at hdropped hadvanced hsubmitted hcount hindexed hdates hlog
  rw [happlied] at hcount
  rw [Nat.zero_add] at hdropped hadvanced hsubmitted hindexed
  exact {
    seen_eq := hseen.trans hlength
    seen_sum := by
      rw [hseen, ← hdropped, hadvanced]
      rfl
    submitted_sum := hsubmitted.trans hadvanced.symm
    applied_sum := rfl
    advanced_eq := hadvanced
    eventsApplied_eq := by
      rw [← processed.2.eventsApplied_resume contract, hresume, hadvanced]
      exact hcount
    lastPosition_eq := by
      rw [← hpositions, ← hposition]
      exact start.position_takeAll xs
    position?_eq := (p.lastPosition_process contract xs now).symm
    indexed_eq := hindexed
    log_eq := ⟨dates, hdates.trans hindexed.symm, hlog⟩ }

theorem Partition.accounted_settled (p : Partition) (contract : ContractId) (es : List RawEvent) :
    Accounted p.undated es (p.settled contract es).1 (p.settled contract es).2 := by
  have htimes : (es.map fun _ => Timestamp.epoch).length = es.length := List.length_map _
  have haccounted := p.undated.accounted_process contract htimes .epoch
  rwa [← List.map_prod_left_eq_zip] at haccounted

namespace World

variable {ρ : Type} [EventSource ρ] {w : World MemoryStore ρ} {contract : ContractId}
  {es : List RawEvent}

/-- A batch of the contract never fails, whatever has been committed before and whatever its events
are. Its report accounts for each of them, as do the checkpoint and the log. -/
theorem process_accounts (hes : ∀ e ∈ es, e.contract = contract)
    (hcommit : w.store.commitFailures = 0) :
    let attempt := w.transact contract (Batch.process contract es)
    ∃ r, attempt.1 = .ok r ∧
      Accounted (w.store.partition contract) es r (attempt.2.store.partition contract) := by
  intro attempt
  obtain ⟨r, p', ⟨report, rfl, haccounted⟩, hanswer, hstore⟩ := w.transact_spec contract
    (Batch.process contract es) (Q := fun r p' => ∃ report, r = .ok report ∧
      Accounted (w.store.partition contract) es report p') <| by
    apply Batch.wp_process
    · intro _ times now htimes
      exact ⟨_, rfl, Partition.accounted_process _ contract htimes now⟩
    · intro e he
      exact absurd (hes e (List.mem_of_find?_eq_some he)) (by simpa using List.find?_some he)
  rw [MemoryStore.settle_of_commitFailures_eq_zero hcommit] at hanswer hstore
  refine ⟨report, hanswer, ?_⟩
  rw [hstore, MemoryStore.partition_insert, if_pos rfl]
  exact haccounted

/-- The log has an event although there is no checkpoint. Of the batch one event is replayed and one
out of order; one is of an unknown topic, one in conflict with the log, one rejected and one
undecodable. -/
theorem process_accounts_without_checkpoint :
    let contract : ContractId := ⟨"C"⟩
    let event (topic : String) (ledger : UInt32) : RawEvent :=
      ⟨contract, topic, .null, ledger, .epoch, .replicate 0, 0⟩
    let cancelled : RawEvent := ⟨contract, "PROPOSAL_CANCELLED", .object [
      ("cancelled_at", .number "2"), ("cancelled_by", .string "A"), ("proposal_id", .number "7")],
      3, .epoch, .replicate 0, 0⟩
    let logged := event "B" 2
    let p : Partition := ⟨∅, Std.ExtTreeMap.empty.insert logged.position (.ofEvent logged .epoch),
      none⟩
    let w : World MemoryStore MemorySource :=
      .start ⟨Std.ExtTreeMap.empty.insert contract p, 0⟩ .empty
    let es := [event "A" 1, event "A" 1, event "B" 1, event "A" 2, cancelled,
      event "TRADE_EXECUTED" 4]
    let attempt := w.transact contract (Batch.process contract es)
    (∀ e ∈ es, e.contract = contract) ∧ w.store.commitFailures = 0 ∧
      ∃ r, attempt.1 = .ok r ∧
        Accounted (w.store.partition contract) es r (attempt.2.store.partition contract) ∧
        r.eventsSeen = 6 ∧ r.advanced = 4 ∧ r.replayed = 1 ∧ r.orderingViolations.length = 1 ∧
        r.ignored = 1 ∧ r.logConflicts.length = 1 ∧ r.rejected.length = 1 ∧
        r.decodeFailures.length = 1 := by
  intro contract event cancelled logged p w es attempt
  have hes : ∀ e ∈ es, e.contract = contract := by simp [es, event, cancelled]
  have hcommit : w.store.commitFailures = 0 := rfl
  obtain ⟨r, hanswer, haccounted⟩ := process_accounts hes hcommit
  let counts (r : BatchReport) := [r.eventsSeen, r.advanced, r.replayed,
    r.orderingViolations.length, r.ignored, r.logConflicts.length, r.rejected.length,
    r.decodeFailures.length]
  have hcounted : attempt.1.toOption.map counts = some [6, 4, 1, 1, 1, 1, 1, 1] := by
    decide +kernel
  have hreport : attempt.1.toOption = some r := congrArg Except.toOption hanswer
  have hcounts : counts r = [6, 4, 1, 1, 1, 1, 1, 1] :=
    Option.some.inj ((congrArg (Option.map counts) hreport).symm.trans hcounted)
  simp only [counts, List.cons.injEq, and_true] at hcounts
  exact ⟨hes, hcommit, r, hanswer, haccounted, hcounts⟩

end World

end EventIndex
