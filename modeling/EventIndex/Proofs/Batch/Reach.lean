import EventIndex.Proofs.Batch.Cut

/-! # How far a batch reaches

After a batch the checkpoint is at or after all of its events, and it does not move back, whatever
the data were. It is the position that the batch reports. -/

namespace EventIndex

namespace Course

variable {s : Course} {x : RawEvent × Timestamp} {xs : List (RawEvent × Timestamp)} {p : Position}

theorem le_position_take (s : Course) (x : RawEvent × Timestamp) :
    ∃ q, (s.take x).tracker.position = some q ∧ x.1.position ≤ q := by
  simp only [take]
  cases hr : s.tracker.reached? x.1.position with
  | some checkpoint =>
    obtain ⟨hposition, hle⟩ := Option.filter_eq_some_iff.mp hr
    exact ⟨checkpoint, by simpa using hposition, by simpa using hle⟩
  | none => exact ⟨x.1.position, rfl, le_rfl⟩

theorem position_take_le (h : s.tracker.position = some p) (x : RawEvent × Timestamp) :
    ∃ q, (s.take x).tracker.position = some q ∧ p ≤ q := by
  simp only [take]
  cases hr : s.tracker.reached? x.1.position with
  | some checkpoint => exact ⟨p, by simpa using h, le_rfl⟩
  | none =>
    have hlt : p < x.1.position := by
      simpa [Tracker.reached?, h, Option.filter_eq_none_iff] using hr
    exact ⟨x.1.position, rfl, hlt.le⟩

theorem position_takeAll_le (h : s.tracker.position = some p) (xs : List (RawEvent × Timestamp)) :
    ∃ q, (s.takeAll xs).tracker.position = some q ∧ p ≤ q := by
  induction xs generalizing s p with
  | nil => exact ⟨p, h, le_rfl⟩
  | cons x xs ih =>
    obtain ⟨q, hq, hpq⟩ := position_take_le h x
    obtain ⟨r, hr, hqr⟩ := ih hq
    exact ⟨r, hr, hpq.trans hqr⟩

theorem le_position_takeAll (s : Course) (hx : x ∈ xs) :
    ∃ q, (s.takeAll xs).tracker.position = some q ∧ x.1.position ≤ q := by
  induction xs generalizing s with
  | nil => cases hx
  | cons y xs ih =>
    rcases List.mem_cons.mp hx with rfl | hx
    · obtain ⟨q, hq, hle⟩ := s.le_position_take x
      obtain ⟨r, hr, hqr⟩ := position_takeAll_le hq xs
      exact ⟨r, hr, hle.trans hqr⟩
    · exact ih (s.take y) hx

end Course

namespace Partition

/-- The position of the checkpoint, after which a worker goes on. -/
def position? (p : Partition) : Option Position :=
  p.checkpoint.map Checkpoint.position

@[simp] theorem position?_undated (p : Partition) : p.undated.position? = p.position? := by
  cases h : p.checkpoint <;> simp [position?, undated, h, Checkpoint.timeless]

variable (p : Partition) (contract : ContractId)

theorem position_resume : (Tracker.resume contract p.checkpoint).position = p.position? := by
  cases h : p.checkpoint <;> simp [position?, h, Tracker.resume, Tracker.start]

section Process

variable (xs : List (RawEvent × Timestamp)) (now : Timestamp)

theorem lastPosition_process :
    (p.process contract xs now).1.lastPosition = (p.process contract xs now).2.position? := by
  have htracked := (Course.Tracked.start contract p).takeAll xs
  have hresume := congrArg Tracker.position (htracked.resume_finish now)
  rw [position_resume] at hresume
  exact hresume.symm

theorem position?_process_le {q : Position} (h : p.position? = some q) :
    ∃ r, (p.process contract xs now).2.position? = some r ∧ q ≤ r := by
  rw [← lastPosition_process]
  exact Course.position_takeAll_le ((p.position_resume contract).trans h) xs

theorem le_position?_process {x : RawEvent × Timestamp} (hx : x ∈ xs) :
    ∃ r, (p.process contract xs now).2.position? = some r ∧ x.1.position ≤ r := by
  rw [← lastPosition_process]
  exact Course.le_position_takeAll _ hx

theorem exists_position?_process {es : List RawEvent} (hne : es ≠ []) {times : List Timestamp}
    (htimes : times.length = es.length) (now : Timestamp) :
    ∃ r, (p.process contract (es.zip times) now).2.position? = some r ∧
      (∀ q, p.position? = some q → q ≤ r) ∧ ∀ e ∈ es, e.position ≤ r := by
  have hreached : ∀ e ∈ es, ∃ r, (p.process contract (es.zip times) now).2.position? = some r ∧
      e.position ≤ r := by
    intro e he
    have hfst : e ∈ (es.zip times).map Prod.fst := by
      rwa [List.map_fst_zip htimes.ge]
    obtain ⟨x, hx, rfl⟩ := List.mem_map.mp hfst
    exact p.le_position?_process contract _ now hx
  obtain ⟨e, he⟩ := List.exists_mem_of_ne_nil es hne
  obtain ⟨r, hr, -⟩ := hreached e he
  refine ⟨r, hr, fun q hq => ?_, fun f hf => ?_⟩
  · obtain ⟨r', hr', hle⟩ := p.position?_process_le contract (es.zip times) now hq
    exact Option.some.inj (hr'.symm.trans hr) ▸ hle
  · obtain ⟨r', hr', hle⟩ := hreached f hf
    exact Option.some.inj (hr'.symm.trans hr) ▸ hle

theorem exists_position?_settled {es : List RawEvent} (hne : es ≠ []) :
    ∃ r, (p.settled contract es).2.position? = some r ∧
      (∀ q, p.position? = some q → q ≤ r) ∧ ∀ e ∈ es, e.position ≤ r := by
  have htimes : (es.map fun _ => Timestamp.epoch).length = es.length := List.length_map _
  rw [← p.process_undated contract htimes .epoch, position?_undated]
  exact p.exists_position?_process contract hne htimes .epoch

/-- Where a batch reports no position, there is no checkpoint before it. -/
theorem lastPosition_process_or :
    ((p.process contract xs now).1.lastPosition <|> p.position?) =
      (p.process contract xs now).2.position? := by
  rw [lastPosition_process]
  cases h : p.position? with
  | none => simp
  | some q =>
    obtain ⟨r, hr, -⟩ := p.position?_process_le contract xs now h
    simp [hr]

end Process

theorem Holds.after_iff {p : Partition} {contract : ContractId} {es : List RawEvent}
    (h : p.Holds contract es) {e : RawEvent} :
    e.After es ↔ p.position?.all (· < e.position) := by
  rw [← h.tracker.reached?_eq_none_iff h.log.rising, Tracker.reached?, position_resume]
  cases p.position? with
  | none => simp
  | some q => simp [Option.filter_eq_none_iff]

end Partition

end EventIndex
