import EventIndex.Proofs.Log.Maxima

/-! # What a batch keeps

Of the logged events a course has applied those up to its tracker, and those after it are still
ahead. An event that is taken is late, or the next one ahead, or after all that is logged. -/

namespace EventIndex

/-! ## What a report says of the delivery -/

/-- What a report says of the delivery of events, whatever they were projected to. -/
structure Delivery where
  indexed : Nat
  alreadyLogged : Nat
  replayed : Nat
  /-- The events out of order, and whether each conflicts with the log. -/
  violations : List (EventContext × Bool)
  logConflicts : List EventContext

namespace Delivery

def indexedMore (d : Delivery) (n : Nat) : Delivery :=
  { d with indexed := d.indexed + n }

def recognizedMore (d : Delivery) (n : Nat) : Delivery :=
  { d with alreadyLogged := d.alreadyLogged + n }

/-- Late events are replayed or out of order, by the events of the log. -/
def dropped (d : Delivery) (log es : List RawEvent) : Delivery :=
  { d with
    replayed := d.replayed + es.countP (· ∈ log)
    violations := d.violations ++
      (es.filter (· ∉ log)).map fun e => (.of e, log.any (·.position = e.position)) }

end Delivery

namespace BatchReport

def delivery (r : BatchReport) : Delivery where
  indexed := r.indexed
  alreadyLogged := r.alreadyLogged
  replayed := r.replayed
  violations := r.orderingViolations.map fun v => (v.context, v.conflictsWithLog)
  logConflicts := r.logConflicts

@[simp] theorem delivery_count (r : BatchReport) (context : EventContext)
    (outcome : Except Refusal Applied) : (r.count context outcome).delivery = r.delivery := by
  cases outcome with
  | error refusal => rfl
  | ok applied => cases applied <;> rfl

end BatchReport

/-! ## The tracker -/

namespace Tracker

/-- The count of so many events. It stays at the greatest word. -/
def countOf (n : Nat) : UInt64 :=
  .ofNat (min n (UInt64.size - 1))

theorem toNat_countOf (n : Nat) : (countOf n).toNat = min n (UInt64.size - 1) := by
  apply UInt64.toNat_ofNat_of_lt'
  have : 0 < UInt64.size := by decide
  omega

theorem countUp_countOf (n : Nat) : countUp (countOf n) = countOf (n + 1) := by
  rw [countUp, toNat_countOf, countOf]
  congr 1
  omega

/-- The tracker has gone through the events, up to the last one. -/
structure Follows (t : Tracker) (es : List RawEvent) : Prop where
  position_eq : t.position = es.getLast?.map RawEvent.position
  eventsApplied_eq : t.eventsApplied = countOf es.length

namespace Follows

variable {t : Tracker} {es : List RawEvent}

theorem start (contract : ContractId) : (start contract).Follows [] where
  position_eq := rfl
  eventsApplied_eq := rfl

/-- Of rising events, the tracker compares with the last, which is after all others. -/
theorem reached?_eq_none_iff (h : t.Follows es) (hes : Rising es) {e : RawEvent} :
    t.reached? e.position = none ↔ e.After es := by
  rw [reached?, h.position_eq]
  rcases es.eq_nil_or_concat' with rfl | ⟨init, last, rfl⟩
  · simp [RawEvent.After]
  · have hinit : last.After init := by
      simpa [RawEvent.After] using (List.pairwise_append.mp hes).2.2
    constructor
    · intro hnone f hf
      have hlast : last.position < e.position := by
        simpa [Option.filter_eq_none_iff] using hnone
      rcases List.mem_append.mp hf with hf | hf
      · exact (hinit f hf).trans hlast
      · rwa [List.mem_singleton.mp hf]
    · intro hafter
      simpa [Option.filter_eq_none_iff] using hafter last (by simp)

theorem advance (h : t.Follows es) (e : RawEvent) {dirty : Bool} :
    Follows ⟨t.contract, some e.position, countUp t.eventsApplied, dirty⟩ (es ++ [e]) where
  position_eq := by simp
  eventsApplied_eq := by simp [h.eventsApplied_eq, countUp_countOf]

end Follows

end Tracker

namespace Course

variable {contract : ContractId} {s : Course}

/-! ## The stored checkpoint -/

section Frame

variable (s : Course) (e : RawEvent) (now : Timestamp)

@[simp] theorem checkpoint_project : (s.project e).data.checkpoint = s.data.checkpoint := by
  simp only [project]
  split <;> rfl

@[simp] theorem log_project : (s.project e).data.log = s.data.log := by
  simp only [project]
  split <;> rfl

@[simp] theorem checkpoint_index : (s.index e now).data.checkpoint = s.data.checkpoint := by
  simp only [index]
  split
  · simp [append]
  · split <;> simp [recognize, refuse]

end Frame

/-- The tracker is at the stored checkpoint, unless it has moved. -/
structure Tracked (contract : ContractId) (s : Course) : Prop where
  contract_eq : s.tracker.contract = contract
  resume_eq : s.tracker.dirty = false → s.tracker = .resume contract s.data.checkpoint
  position_isSome : s.tracker.dirty → s.tracker.position.isSome

namespace Tracked

theorem start (contract : ContractId) (p : Partition) : Tracked contract (start contract p) := by
  cases h : p.checkpoint <;>
    exact ⟨by simp [Course.start, h, Tracker.resume, Tracker.start], fun _ => rfl,
      by simp [Course.start, h, Tracker.resume, Tracker.start]⟩

theorem take (h : s.Tracked contract) (x : RawEvent × Timestamp) :
    (s.take x).Tracked contract := by
  simp only [Course.take]
  split
  · exact ⟨by simpa using h.contract_eq, by simpa using h.resume_eq,
      by simpa using h.position_isSome⟩
  · exact ⟨by simpa [advance] using h.contract_eq, by simp [advance], by simp [advance]⟩

theorem takeAll (h : s.Tracked contract) (xs : List (RawEvent × Timestamp)) :
    (s.takeAll xs).Tracked contract := by
  induction xs generalizing s with
  | nil => exact h
  | cons x xs ih => exact ih (h.take x)

theorem resume_finish (h : s.Tracked contract) (now : Timestamp) :
    Tracker.resume contract (s.finish now).2.checkpoint = { s.tracker with dirty := false } := by
  cases hdirty : s.tracker.dirty with
  | false =>
    have hresume := h.resume_eq hdirty
    have hunsaved : s.tracker.unsaved? now = none := by simp [Tracker.unsaved?, hdirty]
    simpa [finish, hunsaved, ← hdirty] using hresume.symm
  | true =>
    obtain ⟨p, hp⟩ := Option.isSome_iff_exists.mp (h.position_isSome hdirty)
    simp [finish, Tracker.unsaved?, hdirty, hp, Tracker.resume, h.contract_eq]

end Tracked

/-! ## The applied events -/

/-- The events `done` are applied, and the events `ahead` are logged after them. -/
structure Holds (contract : ContractId) (s : Course) (done ahead : List RawEvent) : Prop where
  log : LogHolds contract s.data.log (done ++ ahead)
  tables_eq : s.data.tables = .derive done
  tracker : s.tracker.Follows done

@[simp] theorem tables_project (s : Course) (e : RawEvent) :
    (s.project e).data.tables = s.data.tables.absorb e := by
  simp only [project, Tables.absorb]
  cases decode (.classify e.topic) e.payload e.position <;> rfl

@[simp] theorem delivery_project (s : Course) (e : RawEvent) :
    (s.project e).report.delivery = s.report.delivery := by
  simp only [project]
  split
  · rfl
  · simp

namespace Holds

variable {done ahead : List RawEvent} {e : RawEvent}

theorem reached?_eq_none_iff (h : s.Holds contract done ahead) :
    s.tracker.reached? e.position = none ↔ e.After done :=
  h.tracker.reached?_eq_none_iff (h.log.rising.of_isPrefix (List.prefix_append done ahead))

/-- A late event changes nothing but the report, where it is checked against the log. -/
theorem take_late (h : s.Holds contract done ahead) (he : ¬ e.After done) (now : Timestamp) :
    (s.take (e, now)).data = s.data ∧ (s.take (e, now)).tracker = s.tracker ∧
      (s.take (e, now)).report.delivery = s.report.delivery.dropped (done ++ ahead) [e] := by
  cases hr : s.tracker.reached? e.position with
  | none => exact absurd (h.reached?_eq_none_iff.mp hr) he
  | some checkpoint =>
    have htake : s.take (e, now) = s.see.drop checkpoint e := by simp only [take, hr]
    refine ⟨by simp [htake], by simp [htake], ?_⟩
    have hrecords := h.log.mem_iff (e := e)
    have hposition : s.data.log[e.position]?.isSome =
        (done ++ ahead).any (·.position = e.position) := by
      rw [Bool.eq_iff_iff, h.log.isSome_iff, List.any_eq_true]
      simp only [decide_eq_true_eq]
    generalize done ++ ahead = log at hrecords hposition
    rw [htake]
    by_cases hmem : e ∈ log
    · simp only [drop, data_see, hrecords.mp hmem, if_true]
      simp [BatchReport.delivery, Delivery.dropped, see, hmem]
    · simp only [drop, data_see, mt hrecords.mpr hmem, hposition]
      simp [BatchReport.delivery, Delivery.dropped, see, hmem]

theorem holds_take_late (h : s.Holds contract done ahead) (he : ¬ e.After done)
    (now : Timestamp) : (s.take (e, now)).Holds contract done ahead := by
  obtain ⟨hdata, htracker, -⟩ := h.take_late he now
  refine ⟨?_, ?_, ?_⟩
  · simpa [hdata] using h.log
  · simpa [hdata] using h.tables_eq
  · simpa [htracker] using h.tracker

private theorem take_after (h : s.Holds contract done ahead) (he : e.After done)
    (now : Timestamp) : s.take (e, now) = (s.see.index e now).advance e.position := by
  simp only [take, h.reached?_eq_none_iff.mpr he]

theorem take_eq_recognize (h : s.Holds contract done (e :: ahead)) (now : Timestamp) :
    s.take (e, now) = (s.see.recognize.project e).advance e.position := by
  have hafter : e.After done := fun f hf => h.log.rising.lt_of_mem_append hf (by simp)
  have hlogged := h.log.mem_iff.mp (by simp : e ∈ done ++ e :: ahead)
  obtain ⟨old, hold, hrecords⟩ := (Option.any_eq_true _ _).mp hlogged
  rw [h.take_after hafter]
  simp [index, hold, hrecords]

theorem take_ahead (h : s.Holds contract done (e :: ahead)) (now : Timestamp) :
    (s.take (e, now)).Holds contract (done ++ [e]) ahead ∧
      (s.take (e, now)).report.delivery = s.report.delivery.recognizedMore 1 := by
  rw [h.take_eq_recognize]
  refine ⟨⟨?_, ?_, ?_⟩, ?_⟩
  · simpa [advance, recognize] using h.log
  · simp [advance, recognize, h.tables_eq, Tables.derive_append_singleton]
  · simpa [advance, recognize] using h.tracker.advance e
  · exact delivery_project _ _

theorem take_eq_append (h : s.Holds contract done []) (hafter : e.After done) (now : Timestamp) :
    s.take (e, now) = ((s.see.append e now).project e).advance e.position := by
  have hlog : LogHolds contract s.data.log done := by simpa using h.log
  have hfree : s.data.log[e.position]? = none := by
    rw [← Option.not_isSome_iff_eq_none, hlog.isSome_iff]
    rintro ⟨f, hf, hposition⟩
    exact (hafter f hf).ne hposition
  rw [h.take_after hafter]
  simp [index, hfree]

theorem take_new (h : s.Holds contract done []) (he : e.contract = contract)
    (hafter : e.After done) (now : Timestamp) :
    (s.take (e, now)).Holds contract (done ++ [e]) [] ∧
      (s.take (e, now)).report.delivery = s.report.delivery.indexedMore 1 := by
  have hlog : LogHolds contract s.data.log done := by simpa using h.log
  rw [h.take_eq_append hafter]
  refine ⟨⟨?_, ?_, ?_⟩, ?_⟩
  · simpa [advance, append] using hlog.insert he hafter now
  · simp [advance, append, h.tables_eq, Tables.derive_append_singleton]
  · simpa [advance, append] using h.tracker.advance e
  · exact delivery_project _ _

end Holds

end Course

end EventIndex
