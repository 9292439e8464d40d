import EventIndex.Proofs.Batch.Undated

/-! # Where a batch is cut

A batch that is cut in two does to the data what it does as a whole. The second part goes on from
the checkpoint that the first one has stored, and the whole reports what the two report together. -/

namespace EventIndex

/-- What two batches report together, one after the other. -/
def BatchReport.combine (r s : BatchReport) : BatchReport where
  contract := r.contract
  eventsSeen := r.eventsSeen + s.eventsSeen
  indexed := r.indexed + s.indexed
  alreadyLogged := r.alreadyLogged + s.alreadyLogged
  written := r.written + s.written
  unchanged := r.unchanged + s.unchanged
  ignored := r.ignored + s.ignored
  replayed := r.replayed + s.replayed
  decodeFailures := r.decodeFailures ++ s.decodeFailures
  rejected := r.rejected ++ s.rejected
  orderingViolations := r.orderingViolations ++ s.orderingViolations
  logConflicts := r.logConflicts ++ s.logConflicts
  lastPosition := s.lastPosition

theorem BatchReport.combine_empty (r : BatchReport) (contract : ContractId) :
    r.combine (.empty contract) = { r with lastPosition := none } := by
  simp [combine, empty]

namespace Course

/-- The course as the end of a longer one, which before it has reported `r` and has not stored its
checkpoint. What is stored is `stored`, and `moved` tells whether the tracker has moved since. -/
def after (t : Course) (r : BatchReport) (stored : Option Checkpoint) (moved : Bool) : Course where
  data := { t.data with checkpoint := stored }
  tracker := { t.tracker with dirty := moved || t.tracker.dirty }
  report := r.combine t.report

section After

variable (t : Course) (r : BatchReport) (stored : Option Checkpoint) (moved : Bool)

theorem after_drop (checkpoint : Position) (e : RawEvent) :
    (t.after r stored moved).drop checkpoint e = (t.drop checkpoint e).after r stored moved := by
  have hlog : (t.after r stored moved).data.log = t.data.log := rfl
  simp only [drop, hlog]
  by_cases h : t.data.log[e.position]?.any (·.records e)
  · simp only [h, if_true]
    rfl
  · simp only [h]
    simp only [after, BatchReport.combine, Bool.false_eq_true, if_false, List.append_assoc]

theorem after_project (e : RawEvent) :
    (t.after r stored moved).project e = (t.project e).after r stored moved := by
  simp only [project, after]
  split
  · simp only [BatchReport.combine, List.append_assoc]
  · rename_i d _
    rcases (t.data.tables.apply e.contract e.position d).1 with refusal | applied
    · simp only [BatchReport.count, BatchReport.combine, List.append_assoc]
    · cases applied <;> rfl

theorem after_index (e : RawEvent) (now : Timestamp) :
    (t.after r stored moved).index e now = (t.index e now).after r stored moved := by
  have happend : (t.after r stored moved).append e now = (t.append e now).after r stored moved :=
    rfl
  have hrecognize : (t.after r stored moved).recognize = t.recognize.after r stored moved := rfl
  have hrefuse : (t.after r stored moved).refuse e = (t.refuse e).after r stored moved := by
    simp only [refuse, after, BatchReport.combine, List.append_assoc]
  have hlog : (t.after r stored moved).data.log = t.data.log := rfl
  simp only [index, hlog, happend, hrecognize, hrefuse, after_project]
  split
  · rfl
  · split <;> rfl

theorem after_take (x : RawEvent × Timestamp) :
    (t.after r stored moved).take x = (t.take x).after r stored moved := by
  have hsee : (t.after r stored moved).see = t.see.after r stored moved := rfl
  have hreached : (t.after r stored moved).tracker.reached? x.1.position =
      t.tracker.reached? x.1.position := rfl
  simp only [take, hreached, hsee, after_drop, after_index]
  split
  · rfl
  · simp only [advance, after, Bool.or_true]

theorem after_takeAll (xs : List (RawEvent × Timestamp)) :
    (t.after r stored moved).takeAll xs = (t.takeAll xs).after r stored moved := by
  induction xs generalizing t with
  | nil => rfl
  | cons x xs ih => rw [takeAll_cons, takeAll_cons, after_take, ih]

end After

/-! ## Going on from what is stored -/

/-- The course goes on like the one of a batch that begins with the data it would leave. -/
theorem Tracked.eq_after {contract : ContractId} {s : Course} (h : s.Tracked contract)
    (hposition : s.report.lastPosition = none) (now : Timestamp) :
    s = (Course.start contract (s.finish now).2).after (s.finish now).1 s.data.checkpoint
      s.tracker.dirty := by
  obtain ⟨data, tracker, report⟩ := s
  simp only [Course.start, after, h.resume_finish now, Bool.or_false]
  rw [Course.mk.injEq]
  refine ⟨rfl, rfl, ?_⟩
  rw [BatchReport.combine_empty]
  exact hposition ▸ rfl

theorem Tracked.checkpoint_finish {contract : ContractId} {s : Course} (h : s.Tracked contract)
    (ys : List (RawEvent × Timestamp)) (now : Timestamp) :
    let t := (Course.start contract (s.finish now).2).takeAll ys
    (({ t.tracker with dirty := s.tracker.dirty || t.tracker.dirty } : Tracker).unsaved? now <|>
        s.data.checkpoint) = (t.finish now).2.checkpoint := by
  intro t
  have htracked : t.Tracked contract := (Tracked.start contract _).takeAll ys
  have hstored : t.data.checkpoint = (s.finish now).2.checkpoint := checkpoint_takeAll _ ys
  cases hdirty : t.tracker.dirty with
  | true =>
    obtain ⟨p, hp⟩ := Option.isSome_iff_exists.mp (htracked.position_isSome hdirty)
    simp [finish, Tracker.unsaved?, hdirty, hp]
  | false =>
    have hresume := htracked.resume_eq hdirty
    rw [hstored, h.resume_finish now] at hresume
    simp only [finish, hstored, hresume, Bool.or_false]
    rfl

end Course

namespace Partition

variable (p : Partition) (contract : ContractId)

/-- Events that are processed in two parts are processed as a whole. -/
theorem process_append (xs ys : List (RawEvent × Timestamp)) (now : Timestamp) :
    p.process contract (xs ++ ys) now =
      let first := p.process contract xs now
      let second := first.2.process contract ys now
      (first.1.combine second.1, second.2) := by
  let s := (Course.start contract p).takeAll xs
  have htracked : s.Tracked contract := (Course.Tracked.start contract p).takeAll xs
  have hposition : s.report.lastPosition = none := congrArg Prod.snd (Course.heading_takeAll _ xs)
  have hwhole : (Course.start contract p).takeAll (xs ++ ys) = s.takeAll ys := List.foldl_append
  have hcheckpoint := htracked.checkpoint_finish ys now
  rw [process, hwhole, htracked.eq_after hposition now, Course.after_takeAll]
  exact Prod.ext rfl (congrArg (Partition.mk _ _) hcheckpoint)

/-- What comes of batches one after the other if no time passes. -/
def settledAll (p : Partition) (contract : ContractId) :
    List (List RawEvent) → List BatchReport × Partition
  | [] => ([], p.undated)
  | b :: batches =>
    let first := p.settled contract b
    let others := first.2.settledAll contract batches
    (first.1 :: others.1, others.2)

@[simp] theorem settledAll_undated (batches : List (List RawEvent)) :
    p.undated.settledAll contract batches = p.settledAll contract batches := by
  cases batches with
  | nil => rw [settledAll, settledAll, undated_undated]
  | cons b batches => rw [settledAll, settledAll, settled_undated]

theorem settledAll_concat (batches : List (List RawEvent)) (b : List RawEvent) :
    (p.settledAll contract (batches ++ [b])).2 =
      ((p.settledAll contract batches).2.settled contract b).2 := by
  induction batches generalizing p with
  | nil => simp [settledAll]
  | cons c batches ih => exact ih _

theorem settled_append (es fs : List RawEvent) :
    p.settled contract (es ++ fs) =
      let first := p.settled contract es
      let second := first.2.settled contract fs
      (first.1.combine second.1, second.2) := by
  have hundated := p.undated_settled contract es
  simp only [settled] at hundated ⊢
  rw [hundated, List.map_append, process_append]

/-- However a batch is cut, it comes to what its parts come to one after the other. -/
theorem settled_append_flatten (b : List RawEvent) (batches : List (List RawEvent)) :
    p.settled contract (b ++ batches.flatten) =
      let first := p.settled contract b
      let others := first.2.settledAll contract batches
      (others.1.foldl .combine first.1, others.2) := by
  induction batches generalizing b with
  | nil => simp [settledAll]
  | cons c batches ih =>
    rw [List.flatten_cons, ← List.append_assoc, ih (b ++ c), settled_append]
    rfl

end Partition

end EventIndex
