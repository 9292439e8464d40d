import EventIndex.Proofs.Batch.Committed

/-! # Data without dates

The clock is only looked at to date the entries of the log and the checkpoint. What a batch reports
and does to the data is the same whatever it shows, but for these dates. -/

namespace EventIndex

open Std

namespace Partition

/-- The data with the dates of the log entries and the checkpoint erased. -/
def undated (p : Partition) : Partition :=
  { p with
    log := p.log.map fun _ x => x.timeless
    checkpoint := p.checkpoint.map Checkpoint.timeless }

variable (p : Partition)

theorem getElem?_undated (position : Position) :
    p.undated.log[position]? = p.log[position]?.map LogEntry.timeless :=
  ExtTreeMap.getElem?_map

theorem entries_undated : p.undated.entries = p.entries.map LogEntry.timeless := by
  simp only [entries, undated, OrderedMap.values_eq_map_toList, ExtTreeMap.toList_map,
    List.map_map]
  rfl

theorem toRaw_entries_undated :
    p.undated.entries.map LogEntry.toRaw = p.entries.map LogEntry.toRaw := by
  rw [entries_undated, List.map_map]
  rfl

@[simp] theorem undated_undated : p.undated.undated = p.undated := by
  have hlog : p.undated.log.map (fun _ x => x.timeless) = p.undated.log := by
    apply ExtTreeMap.ext_getElem?
    intro position
    rw [ExtTreeMap.getElem?_map, getElem?_undated, Option.map_map]
    rfl
  have hcheckpoint : p.undated.checkpoint.map Checkpoint.timeless = p.undated.checkpoint := by
    cases h : p.checkpoint <;> simp [undated, h, Checkpoint.timeless]
  rw [undated, hlog, hcheckpoint]

theorem undated_append (e : RawEvent) (now : Timestamp) :
    undated { p with log := p.log.insert e.position (.ofEvent e now) } =
      { p.undated with log := p.undated.log.insert e.position (.ofEvent e .epoch) } := by
  have hlog : (p.log.insert e.position (.ofEvent e now)).map (fun _ x => x.timeless) =
      p.undated.log.insert e.position (.ofEvent e .epoch) := by
    apply ExtTreeMap.ext_getElem?
    intro position
    rw [ExtTreeMap.getElem?_map, ExtTreeMap.getElem?_insert, ExtTreeMap.getElem?_insert,
      getElem?_undated]
    split
    · rw [Option.map_some, LogEntry.timeless_ofEvent]
    · rfl
  simp only [undated, hlog]

theorem resume_undated (contract : ContractId) :
    Tracker.resume contract p.undated.checkpoint = .resume contract p.checkpoint := by
  cases h : p.checkpoint <;> simp [undated, h, Tracker.resume, Checkpoint.timeless]

end Partition

@[simp] theorem LogEntry.records_timeless (x : LogEntry) (e : RawEvent) :
    x.timeless.records e = x.records e := rfl

namespace Course

def undated (s : Course) : Course :=
  { s with data := s.data.undated }

variable (s : Course) (checkpoint : Position) (e : RawEvent) (now : Timestamp)

theorem undated_drop : (s.drop checkpoint e).undated = s.undated.drop checkpoint e := by
  have hlog := s.data.getElem?_undated e.position
  simp only [drop, undated, hlog, Option.isSome_map]
  cases s.data.log[e.position]? with
  | none => rfl
  | some old =>
    by_cases h : old.records e <;> simp [h]

theorem undated_project : (s.project e).undated = s.undated.project e := by
  simp only [project, undated]
  cases decode (.classify e.topic) e.payload e.position <;> rfl

theorem undated_append : (s.append e now).undated = s.undated.append e .epoch := by
  simp only [append, undated, Partition.undated_append]

theorem undated_index : (s.index e now).undated = s.undated.index e .epoch := by
  have hlog : s.undated.data.log[e.position]? = s.data.log[e.position]?.map LogEntry.timeless :=
    s.data.getElem?_undated e.position
  simp only [index, hlog]
  cases s.data.log[e.position]? with
  | none => simp only [Option.map_none, undated_project, undated_append]
  | some old =>
    by_cases h : old.records e
    · simp only [Option.map_some, LogEntry.records_timeless, h, if_true, undated_project]
      rfl
    · simp only [Option.map_some, LogEntry.records_timeless, h]
      rfl

theorem undated_take : (s.take (e, now)).undated = s.undated.take (e, .epoch) := by
  have hreached : s.undated.tracker.reached? e.position = s.tracker.reached? e.position := rfl
  simp only [take, hreached]
  cases s.tracker.reached? e.position with
  | some checkpoint => exact s.see.undated_drop checkpoint e
  | none => exact congrArg (·.advance e.position) (s.see.undated_index e now)

theorem undated_takeAll {es : List RawEvent} {times : List Timestamp}
    (htimes : times.length = es.length) :
    (s.takeAll (es.zip times)).undated = s.undated.takeAll (es.map (·, .epoch)) := by
  induction es generalizing s times with
  | nil => simp
  | cons e es ih =>
    obtain ⟨now, times, rfl⟩ := List.exists_cons_of_length_eq_add_one htimes
    rw [List.zip_cons_cons, List.map_cons, takeAll_cons, takeAll_cons,
      ih (s.take (e, now)) (by simpa using htimes), undated_take]

theorem undated_finish :
    ((s.finish now).1, (s.finish now).2.undated) = s.undated.finish .epoch := by
  have hcheckpoint : (s.tracker.unsaved? now <|> s.data.checkpoint).map Checkpoint.timeless =
      (s.tracker.unsaved? .epoch <|> s.data.undated.checkpoint) := by
    simp only [Tracker.unsaved?]
    split
    · cases s.tracker.position <;> rfl
    · rfl
  simp only [finish, undated, Partition.undated, hcheckpoint]

end Course

namespace Partition

/-- What comes of a batch if no time passes. -/
def settled (p : Partition) (contract : ContractId) (es : List RawEvent) :
    BatchReport × Partition :=
  p.undated.process contract (es.map (·, .epoch)) .epoch

theorem process_undated (p : Partition) (contract : ContractId) {es : List RawEvent}
    {times : List Timestamp} (htimes : times.length = es.length) (now : Timestamp) :
    ((p.process contract (es.zip times) now).1, (p.process contract (es.zip times) now).2.undated) =
      p.settled contract es := by
  have hstart : (Course.start contract p).undated = .start contract p.undated := by
    simp only [Course.start, Course.undated, resume_undated]
  simp only [process, Course.undated_finish, Course.undated_takeAll _ htimes, hstart, settled]

@[simp] theorem settled_undated (p : Partition) (contract : ContractId) (es : List RawEvent) :
    p.undated.settled contract es = p.settled contract es := by
  rw [settled, undated_undated, settled]

@[simp] theorem undated_settled (p : Partition) (contract : ContractId) (es : List RawEvent) :
    (p.settled contract es).2.undated = (p.settled contract es).2 := by
  have htimes : (es.map fun _ => Timestamp.epoch).length = es.length := List.length_map _
  have hprocess := p.undated.process_undated contract htimes .epoch
  rw [← List.map_prod_left_eq_zip, settled_undated] at hprocess
  exact congrArg Prod.snd hprocess

end Partition

theorem Partition.Holds.undated_eq {contract : ContractId} {p q : Partition} {es : List RawEvent}
    (hp : p.Holds contract es) (hq : q.Holds contract es) : p.undated = q.undated := by
  have hlog : p.undated.log = q.undated.log := by
    apply ExtTreeMap.ext_getElem?
    intro position
    rw [getElem?_undated, getElem?_undated]
    cases hx : p.log[position]? with
    | none =>
      have hfree : ¬ p.log[position]?.isSome := by simp [hx]
      rw [hp.log.isSome_iff, ← hq.log.isSome_iff] at hfree
      rw [Option.not_isSome_iff_eq_none.mp hfree]
    | some x =>
      have hposition : x.toRaw.position = position := hp.log.position_eq position x hx
      have hmem : x.toRaw ∈ es := hp.log.mem_iff_exists.mpr ⟨x, by rwa [hposition], rfl⟩
      obtain ⟨y, hy, hraw⟩ := hq.log.mem_iff_exists.mp hmem
      rw [hposition] at hy
      rw [hy, Option.map_some, Option.map_some, hp.log.entry_eq position x hx,
        hq.log.entry_eq position y hy, hraw, LogEntry.timeless_ofEvent, LogEntry.timeless_ofEvent]
  have htimeless := hp.timeless_eq hq
  simp only [timeless, Prod.mk.injEq] at htimeless
  rw [undated, undated, Partition.mk.injEq]
  exact ⟨htimeless.2.1, hlog, htimeless.2.2⟩

/-- If no time passes, a batch adds its maxima to the logged events. -/
theorem Partition.Holds.exists_settled {contract : ContractId} {p : Partition}
    {logged es : List RawEvent} (h : p.Holds contract logged)
    (hes : ∀ e ∈ es, e.contract = contract) :
    ∃ q : Partition, q.Holds contract (logged ++ maxima logged es) ∧
      q.undated = (p.settled contract es).2 := by
  have htimes : (es.map fun _ => Timestamp.epoch).length = es.length := List.length_map _
  have hrising := h.log.rising.append_maxima es
  exact ⟨_, (h.process hes htimes (List.prefix_refl _) hrising .epoch).1,
    congrArg Prod.snd (p.process_undated contract htimes .epoch)⟩

/-- On any data a batch of the contract does what it does when no time passes, but for the dates;
another one is given up at its first event of another contract. -/
theorem Batch.wp_process_settled (contract : ContractId) (es : List RawEvent) (p : Partition) :
    (process contract es).run.wp Partition.rule (fun r p' =>
      match es.find? (·.contract ≠ contract) with
      | none => r = .ok (p.settled contract es).1 ∧ p'.undated = (p.settled contract es).2
      | some e => r = .error (.foreignEvent contract e.contract)) p := by
  apply wp_process
  · intro hes times now htimes
    have hnone : es.find? (·.contract ≠ contract) = none := by simpa using hes
    rw [hnone, ← p.process_undated contract htimes now]
    exact ⟨rfl, rfl⟩
  · intro e he d
    rw [he]

end EventIndex
