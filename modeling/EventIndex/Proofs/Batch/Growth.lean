import EventIndex.Proofs.Batch.Committed

/-! # Data that grow

A batch adds to the log and alters no entry of it, so committed data only grow. A rebuild leaves the
log as it is. -/

namespace EventIndex

namespace Course

variable {s : Course} {position : Position} {x : LogEntry}

/-! ## The log -/

theorem getElem?_log_index (h : s.data.log[position]? = some x) (e : RawEvent) (now : Timestamp) :
    (s.index e now).data.log[position]? = some x := by
  simp only [index]
  split
  · rename_i hfree
    have hne : e.position ≠ position := by
      rintro rfl
      simp [hfree] at h
    simp [append, Std.ExtTreeMap.getElem?_insert, hne, h]
  · split <;> simpa [recognize, refuse] using h

theorem getElem?_log_take (h : s.data.log[position]? = some x) (y : RawEvent × Timestamp) :
    (s.take y).data.log[position]? = some x := by
  simp only [take]
  split
  · simpa using h
  · exact getElem?_log_index (s := s.see) h y.1 y.2

theorem getElem?_log_takeAll (h : s.data.log[position]? = some x)
    (ys : List (RawEvent × Timestamp)) : (s.takeAll ys).data.log[position]? = some x := by
  induction ys generalizing s with
  | nil => exact h
  | cons y ys ih => exact ih (getElem?_log_take h y)

end Course

namespace Partition

variable {contract : ContractId} {p p' p'' : Partition} {es fs : List RawEvent}

theorem getElem?_log_process {position : Position} {x : LogEntry} (h : p.log[position]? = some x)
    (contract : ContractId) (ys : List (RawEvent × Timestamp)) (now : Timestamp) :
    (p.process contract ys now).2.log[position]? = some x :=
  Course.getElem?_log_takeAll (s := .start contract p) h ys

theorem eventsSeen_process (p : Partition) (contract : ContractId)
    (ys : List (RawEvent × Timestamp)) (now : Timestamp) :
    (p.process contract ys now).1.eventsSeen = ys.length :=
  (congrArg Prod.fst (Course.heading_takeAll (.start contract p) ys)).trans (Nat.zero_add _)

/-! ## Data of further events -/

/-- The data are what some events give. -/
def Derived (contract : ContractId) (p : Partition) : Prop :=
  ∃ es, p.Holds contract es

/-- The later data are of the same events and further ones, with the entries of the log as they
were. -/
structure GrowsTo (contract : ContractId) (p p' : Partition) : Prop where
  holds : ∃ es fs, p.Holds contract es ∧ p'.Holds contract (es ++ fs)
  getElem?_log : ∀ (position : Position) (x : LogEntry), p.log[position]? = some x →
    p'.log[position]? = some x

namespace GrowsTo

theorem refl (h : p.Derived contract) : p.GrowsTo contract p where
  holds := by
    obtain ⟨es, hes⟩ := h
    exact ⟨es, [], hes, by simpa using hes⟩
  getElem?_log _ _ h := h

theorem trans (h : p.GrowsTo contract p') (h' : p'.GrowsTo contract p'') :
    p.GrowsTo contract p'' where
  holds := by
    obtain ⟨es, fs, hp, hp'⟩ := h.holds
    obtain ⟨es', gs, hq, hp''⟩ := h'.holds
    obtain rfl : es ++ fs = es' := hp'.entries_eq.symm.trans hq.entries_eq
    exact ⟨es, fs ++ gs, hp, by rwa [← List.append_assoc]⟩
  getElem?_log position x hx := h'.getElem?_log position x (h.getElem?_log position x hx)

theorem derived (h : p.GrowsTo contract p') : p'.Derived contract :=
  h.holds.elim fun es ⟨fs, _, hp'⟩ => ⟨es ++ fs, hp'⟩

theorem checkpoint_le (h : p.GrowsTo contract p') {c : Checkpoint} (hc : p.checkpoint = some c) :
    ∃ c', p'.checkpoint = some c' ∧ c.position ≤ c'.position := by
  obtain ⟨es, fs, hp, hp'⟩ := h.holds
  obtain ⟨e, he, hposition, -⟩ := hp.checkpoint_eq hc
  have hmem : e ∈ es ++ fs := List.mem_append_left fs (List.mem_of_getLast? he)
  obtain ⟨c', hc'⟩ := Option.isSome_iff_exists.mp
    (hp'.checkpoint_isSome_iff.mpr (List.ne_nil_of_mem hmem))
  obtain ⟨e', he', hposition', -⟩ := hp'.checkpoint_eq hc'
  refine ⟨c', hc', ?_⟩
  rw [← hposition, ← hposition']
  exact hp'.log.rising.le_getLast he' hmem

end GrowsTo

end Partition

theorem Processed.growsTo {contract : ContractId} {es fs : List RawEvent} {p p' : Partition}
    {report : BatchReport} (h : Processed contract es fs p report p') (hp : p.Holds contract es) :
    p.GrowsTo contract p' where
  holds := ⟨es, _, hp, h.holds⟩
  getElem?_log position x hx := by
    obtain ⟨times, now, -, heq⟩ := h.computed
    simpa only [heq] using Partition.getElem?_log_process hx contract (fs.zip times) now

namespace Rebuilt

variable {contract : ContractId} {es : List RawEvent} {p p' : Partition} {report : BatchReport}

theorem growsTo (h : Rebuilt contract es p report p') (hp : p.Holds contract es) :
    p.GrowsTo contract p' where
  holds := ⟨es, [], hp, by simpa using h.holds⟩
  getElem?_log position x hx := by
    obtain ⟨times, now, -, heq⟩ := h.computed
    have hcleared : p.cleared.log[position]? = some x := hx
    simpa only [heq] using Partition.getElem?_log_process hcleared contract (es.zip times) now

/-- The log is the same, with the times at which its entries were written. -/
theorem log_eq (h : Rebuilt contract es p report p') (hp : p.Holds contract es) :
    p'.log = p.log := by
  apply Std.ExtTreeMap.ext_getElem?
  intro position
  cases hx : p.log[position]? with
  | some x => exact (h.growsTo hp).getElem?_log position x hx
  | none =>
    have hfree : ¬ p.log[position]?.isSome := by simp [hx]
    rw [hp.log.isSome_iff, ← h.holds.log.isSome_iff] at hfree
    exact Option.not_isSome_iff_eq_none.mp hfree

theorem eventsSeen_eq (h : Rebuilt contract es p report p') : report.eventsSeen = es.length := by
  obtain ⟨times, now, htimes, heq⟩ := h.computed
  have hseen := p.cleared.eventsSeen_process contract (es.zip times) now
  rwa [heq, List.length_zip, htimes, min_self] at hseen

end Rebuilt

end EventIndex
