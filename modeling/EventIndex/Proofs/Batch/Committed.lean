import EventIndex.Proofs.Batch.Processing

/-! # Committed data

The data of a contract between its transactions are a function of the logged events, but for the
times at which they were written. -/

namespace EventIndex

/-! ## Data without times -/

namespace LogEntry

def timeless (x : LogEntry) : LogEntry :=
  { x with createdAt := .epoch }

@[simp] theorem timeless_ofEvent (e : RawEvent) (now : Timestamp) :
    (ofEvent e now).timeless = ofEvent e .epoch := by
  unfold ofEvent
  cases decode (.classify e.topic) e.payload e.position <;> rfl

end LogEntry

def Checkpoint.timeless (c : Checkpoint) : Checkpoint :=
  { c with updatedAt := .epoch }

namespace Partition

/-- The log, the rows and the checkpoint, without the times at which they were written. -/
def timeless (p : Partition) : List LogEntry × Tables × Option Checkpoint :=
  (p.entries.map LogEntry.timeless, p.tables, p.checkpoint.map Checkpoint.timeless)

/-- The data are what the events give: these are logged, the rows are derived from them, and the
checkpoint is at the last of them. -/
structure Holds (contract : ContractId) (p : Partition) (es : List RawEvent) : Prop where
  log : LogHolds contract p.log es
  tables_eq : p.tables = .derive es
  tracker : (Tracker.resume contract p.checkpoint).Follows es
  contract_eq : ∀ x, p.checkpoint = some x → x.contract = contract

end Partition

theorem Course.Holds.finish {contract : ContractId} {s : Course} {done : List RawEvent}
    (h : s.Holds contract done []) (htracked : s.Tracked contract)
    (hstored : ∀ x, s.data.checkpoint = some x → x.contract = contract) (now : Timestamp) :
    (s.finish now).2.Holds contract done where
  log := by simpa [Course.finish] using h.log
  tables_eq := h.tables_eq
  tracker := by
    rw [htracked.resume_finish]
    exact ⟨h.tracker.position_eq, h.tracker.eventsApplied_eq⟩
  contract_eq := by
    intro x hx
    cases hu : s.tracker.unsaved? now with
    | none => exact hstored x (by simpa [Course.finish, hu] using hx)
    | some y =>
      obtain rfl : y = x := by simpa [Course.finish, hu] using hx
      simp only [Tracker.unsaved?] at hu
      split at hu
      · obtain ⟨p, -, rfl⟩ := Option.map_eq_some_iff.mp hu
        exact htracked.contract_eq
      · cases hu

namespace Partition.Holds

variable {contract : ContractId} {p q : Partition} {es fs log : List RawEvent}
  {times : List Timestamp}

theorem empty (contract : ContractId) : Holds contract ∅ [] where
  log := .empty contract
  tables_eq := rfl
  tracker := .start contract
  contract_eq := by
    intro x hx
    cases hx

theorem entries_eq (h : p.Holds contract es) : p.entries.map LogEntry.toRaw = es :=
  h.log.toRaw_values

/-! ## Batches -/

theorem start (h : p.Holds contract es) :
    (Course.start contract p).Holds contract es [] where
  log := by simpa [Course.start] using h.log
  tables_eq := h.tables_eq
  tracker := h.tracker

/-- A batch adds its maxima to the events. -/
theorem process (h : p.Holds contract es) (hfs : ∀ e ∈ fs, e.contract = contract)
    (htimes : times.length = fs.length) (hlog : es ++ maxima es fs <+: log) (hrising : Rising log)
    (now : Timestamp) :
    (p.process contract (fs.zip times) now).2.Holds contract (es ++ maxima es fs) ∧
      (p.process contract (fs.zip times) now).1.delivery =
        ((BatchReport.empty contract).delivery.indexedMore (maxima es fs).length).dropped log
          (late es fs) := by
  have hfst : (fs.zip times).map Prod.fst = fs := List.map_fst_zip htimes.ge
  have hzip : ∀ x ∈ fs.zip times, x.1.contract = contract := fun x hx =>
    hfs x.1 (List.of_mem_zip hx).1
  obtain ⟨hholds, hreport⟩ := h.start.takeAll hzip (by rwa [hfst]) hrising
  rw [hfst] at hholds hreport
  have htracked := (Course.Tracked.start contract p).takeAll (fs.zip times)
  exact ⟨hholds.finish htracked (by simpa [Course.start] using h.contract_eq) now, hreport⟩

theorem process_late (h : p.Holds contract es) (hlate : ∀ e ∈ fs, ¬ e.After es) (now : Timestamp) :
    (p.process contract (fs.zip times) now).2 = p := by
  have hzip : ∀ x ∈ fs.zip times, ¬ x.1.After es := fun x hx => hlate x.1 (List.of_mem_zip hx).1
  obtain ⟨hdata, htracker⟩ := h.start.takeAll_late hzip
  have hclean : (Tracker.resume contract p.checkpoint).dirty = false := by
    cases p.checkpoint <;> rfl
  have hunsaved : (Course.start contract p).tracker.unsaved? now = none := by
    simp [Course.start, Tracker.unsaved?, hclean]
  simp only [Partition.process, Course.finish, hdata, htracker, hunsaved]
  simp [Course.start]

/-- A rebuild gives the data of the same events, and finds all of them in the log. -/
theorem rebuild (h : p.Holds contract es) (htimes : times.length = es.length) (now : Timestamp) :
    (p.cleared.process contract (es.zip times) now).2.Holds contract es ∧
      (p.cleared.process contract (es.zip times) now).1.delivery =
        (BatchReport.empty contract).delivery.recognizedMore es.length := by
  have hstart : (Course.start contract p.cleared).Holds contract [] es :=
    ⟨h.log, rfl, .start contract⟩
  obtain ⟨hholds, hreport⟩ := hstart.takeAll_ahead (List.map_fst_zip htimes.ge)
  have htracked := (Course.Tracked.start contract p.cleared).takeAll (es.zip times)
  exact ⟨hholds.finish htracked (by simp [Course.start, cleared]) now, hreport⟩

/-! ## The data as a function of the events -/

private theorem map_timeless_entries (h : p.Holds contract es) :
    p.entries.map LogEntry.timeless = es.map (LogEntry.ofEvent · .epoch) := by
  rw [← h.entries_eq, List.map_map]
  apply List.map_congr_left
  intro x hx
  obtain ⟨position, hposition⟩ := OrderedMap.mem_values_iff.mp hx
  rw [h.log.entry_eq position x hposition]
  simp

theorem checkpoint_eq (h : p.Holds contract es) {c : Checkpoint} (hc : p.checkpoint = some c) :
    ∃ e, es.getLast? = some e ∧ e.position = c.position ∧
      c.eventsApplied = Tracker.countOf es.length := by
  obtain ⟨hposition, hcount⟩ := h.tracker
  obtain ⟨e, he, heq⟩ : ∃ e, es.getLast? = some e ∧ e.position = c.position := by
    simpa [hc, Tracker.resume, eq_comm] using hposition
  exact ⟨e, he, heq, by simpa [hc, Tracker.resume] using hcount⟩

theorem checkpoint_isSome_iff (h : p.Holds contract es) : p.checkpoint.isSome ↔ es ≠ [] := by
  have hposition :
      (Tracker.resume contract p.checkpoint).position.isSome = p.checkpoint.isSome := by
    cases p.checkpoint <;> rfl
  rw [← hposition, h.tracker.position_eq, Option.isSome_map, List.getLast?_isSome]

theorem after_of_checkpoint (h : p.Holds contract es) {x : RawEvent}
    (hx : ∀ c, p.checkpoint = some c → c.position < x.position) : x.After es := by
  intro f hf
  obtain ⟨c, hc⟩ := Option.isSome_iff_exists.mp
    (h.checkpoint_isSome_iff.mpr (List.ne_nil_of_mem hf))
  obtain ⟨e, he, hposition, -⟩ := h.checkpoint_eq hc
  exact (h.log.rising.le_getLast he hf).trans_lt (hposition.trans_lt (hx c hc))

private theorem map_timeless_checkpoint (h : p.Holds contract es) :
    p.checkpoint.map Checkpoint.timeless = es.getLast?.map fun e =>
      ⟨contract, e.position, Tracker.countOf es.length, .epoch⟩ := by
  cases hc : p.checkpoint with
  | none =>
    have hnil : ¬ es ≠ [] := by simp [← h.checkpoint_isSome_iff, hc]
    simp [not_not.mp hnil]
  | some c =>
    obtain ⟨e, he, hposition, happlied⟩ := h.checkpoint_eq hc
    simp [he, Checkpoint.timeless, hposition, happlied, h.contract_eq c hc]

theorem timeless_eq (hp : p.Holds contract es) (hq : q.Holds contract es) :
    p.timeless = q.timeless := by
  simp only [timeless, hp.map_timeless_entries, hq.map_timeless_entries, hp.tables_eq, hq.tables_eq,
    hp.map_timeless_checkpoint, hq.map_timeless_checkpoint]

end Partition.Holds

/-! ## Batches on committed data -/

/-- What a batch of the events `fs` does, on the data `p` of the events `es`. Its late events may be
checked against any log that goes on from the one after it. -/
structure Processed (contract : ContractId) (es fs : List RawEvent) (p : Partition)
    (report : BatchReport) (p' : Partition) : Prop where
  contract_eq : ∀ e ∈ fs, e.contract = contract
  holds : p'.Holds contract (es ++ maxima es fs)
  delivery_eq : ∀ log, es ++ maxima es fs <+: log → Rising log →
    report.delivery =
      ((BatchReport.empty contract).delivery.indexedMore (maxima es fs).length).dropped log
        (late es fs)
  eq_of_late : (∀ e ∈ fs, ¬ e.After es) → p' = p
  computed : ∃ times now, times.length = fs.length ∧
    p.process contract (fs.zip times) now = (report, p')

/-- A batch of further deliveries takes the data on to the maxima of all. -/
theorem Processed.holds_maxima {contract : ContractId} {ds es : List RawEvent} {p p' : Partition}
    {report : BatchReport} (h : Processed contract (maxima [] ds) es p report p') :
    p'.Holds contract (maxima [] (ds ++ es)) := by
  simpa only [maxima_append_maxima] using h.holds

/-- What a rebuild does on the data `p` of the events `es`. -/
structure Rebuilt (contract : ContractId) (es : List RawEvent) (p : Partition)
    (report : BatchReport) (p' : Partition) : Prop where
  holds : p'.Holds contract es
  delivery_eq : report.delivery = (BatchReport.empty contract).delivery.recognizedMore es.length
  computed : ∃ times now, times.length = es.length ∧
    p.cleared.process contract (es.zip times) now = (report, p')

namespace Batch

variable {contract : ContractId} {p : Partition} {es : List RawEvent}

/-- A batch is processed unless it has an event of another contract. -/
theorem wp_process_of_holds (h : p.Holds contract es) (fs : List RawEvent) :
    (process contract fs).run.wp Partition.rule (fun r p' =>
      match r with
      | .ok report => Processed contract es fs p report p'
      | .error err => ∃ e ∈ fs, e.contract ≠ contract ∧
        err = .foreignEvent contract e.contract) p := by
  apply wp_process
  · intro hfs times now htimes
    have hrising : Rising (es ++ maxima es fs) := h.log.rising.append_maxima fs
    obtain ⟨hholds, -⟩ := h.process hfs htimes (List.prefix_refl _) hrising now
    refine ⟨hfs, hholds, ?_, ?_, times, now, htimes, rfl⟩
    · intro log hlog hrising
      exact (h.process hfs htimes hlog hrising now).2
    · intro hlate
      exact h.process_late hlate now
  · intro e he d
    exact ⟨e, List.mem_of_find?_eq_some he, by simpa using List.find?_some he, rfl⟩

theorem wp_rebuild_of_holds (h : p.Holds contract es) :
    (rebuild contract).run.wp Partition.rule
      (fun r p' => ∃ report, r = .ok report ∧ Rebuilt contract es p report p') p := by
  rw [wp_rebuild, h.entries_eq]
  apply wp_process
  · intro _ times now htimes
    obtain ⟨hholds, hdelivery⟩ := h.rebuild htimes now
    exact ⟨_, rfl, hholds, hdelivery, times, now, htimes, rfl⟩
  · intro e he d
    refine absurd (h.log.contract_eq e (List.mem_of_find?_eq_some he)) ?_
    simpa using List.find?_some he

end Batch

end EventIndex
