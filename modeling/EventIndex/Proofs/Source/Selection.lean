import EventIndex.Source
import EventIndex.Proofs.Position.Order
import Mathlib.Data.List.Pairwise

/-! # Selecting events of a source

A source in memory selects the events of a contract that are after a position, in the order of their
positions. The sort is stable, so of several events at one position the one that was added first
comes first, and selecting after a later position is selecting from what is selected. -/

namespace EventIndex

namespace MemorySource

variable {es fs : List RawEvent}

/-! ## Sorted events -/

theorem pairwise_sortEvents (es : List RawEvent) :
    (sortEvents es).Pairwise fun e f => e.position ≤ f.position := by
  have hsorted : (sortEvents es).Pairwise fun e f => decide (e.position ≤ f.position) = true := by
    apply List.pairwise_mergeSort
    · exact fun a b c hab hbc => by
        simpa using (of_decide_eq_true hab).trans (of_decide_eq_true hbc)
    · exact fun a b => by simpa using le_total a.position b.position
  exact hsorted.imp of_decide_eq_true

theorem mem_sortEvents {e : RawEvent} : e ∈ sortEvents es ↔ e ∈ es :=
  (List.mergeSort_perm es _).mem_iff

theorem filter_position_sortEvents (es : List RawEvent) (q : Position) :
    (sortEvents es).filter (·.position = q) = es.filter (·.position = q) := by
  have hsublist : (es.filter (·.position = q)).Sublist (sortEvents es) := by
    apply List.sublist_mergeSort
    · exact fun a b c hab hbc => by
        simpa using (of_decide_eq_true hab).trans (of_decide_eq_true hbc)
    · exact fun a b => by simpa using le_total a.position b.position
    · rw [List.pairwise_iff_forall_sublist]
      intro a b hab
      have ha : a.position = q := by simpa using (List.mem_filter.mp (hab.subset (by simp))).2
      have hb : b.position = q := by simpa using (List.mem_filter.mp (hab.subset (by simp))).2
      simp [ha, hb]
    · exact List.filter_sublist
  have hfilter := hsublist.filter (·.position = q)
  rw [List.filter_filter] at hfilter
  simp only [Bool.and_self] at hfilter
  refine (hfilter.eq_of_length ?_).symm
  exact ((List.mergeSort_perm es _).symm.filter _).length_eq

/-- Sorted events are known by the events at each position. -/
theorem eq_of_filter_position (hes : es.Pairwise fun e f => e.position ≤ f.position)
    (hfs : fs.Pairwise fun e f => e.position ≤ f.position)
    (h : ∀ q, es.filter (·.position = q) = fs.filter (·.position = q)) : es = fs := by
  have hmem (e : RawEvent) : e ∈ es ↔ e ∈ fs := by
    have := congrArg (e ∈ ·) (h e.position)
    simpa using this
  induction es generalizing fs with
  | nil =>
    symm
    rw [List.eq_nil_iff_forall_not_mem]
    intro e he
    exact List.not_mem_nil ((hmem e).mpr he)
  | cons e es ih =>
    cases fs with
    | nil => exact absurd ((hmem e).mp List.mem_cons_self) List.not_mem_nil
    | cons f fs =>
      obtain ⟨he, hes'⟩ := List.pairwise_cons.mp hes
      obtain ⟨hf, hfs'⟩ := List.pairwise_cons.mp hfs
      -- Each of the first events is at the least position.
      have hposition : e.position = f.position := by
        apply le_antisymm
        · rcases List.mem_cons.mp ((hmem f).mpr List.mem_cons_self) with rfl | hmem
          · exact le_rfl
          · exact he f hmem
        · rcases List.mem_cons.mp ((hmem e).mp List.mem_cons_self) with rfl | hmem
          · exact le_rfl
          · exact hf e hmem
      have hfirst := h e.position
      simp only [List.filter_cons, hposition, decide_true, if_true, List.cons.injEq] at hfirst
      obtain ⟨rfl, -⟩ := hfirst
      have hrest (q : Position) : es.filter (·.position = q) = fs.filter (·.position = q) := by
        have hq := h q
        simp only [List.filter_cons] at hq
        split at hq
        · exact (List.cons.inj hq).2
        · exact hq
      refine congrArg (e :: ·) (ih hes' hfs' hrest fun g => ?_)
      have := congrArg (g ∈ ·) (hrest g.position)
      simpa using this

theorem sortEvents_filter (es : List RawEvent) (keep : RawEvent → Bool) :
    sortEvents (es.filter keep) = (sortEvents es).filter keep := by
  apply eq_of_filter_position (pairwise_sortEvents _) ((pairwise_sortEvents es).filter _)
  intro q
  rw [filter_position_sortEvents, List.filter_filter, List.filter_filter]
  calc es.filter (fun e => e.position = q && keep e)
      = (es.filter (·.position = q)).filter keep := by
        rw [List.filter_filter]
        exact List.filter_congr fun e _ => Bool.and_comm _ _
    _ = ((sortEvents es).filter (·.position = q)).filter keep := by
        rw [filter_position_sortEvents]
    _ = (sortEvents es).filter (fun e => e.position = q && keep e) := by
        rw [List.filter_filter]
        exact List.filter_congr fun e _ => Bool.and_comm _ _

/-! ## Selected events -/

variable {s : MemorySource} {contract : ContractId} {after : Option Position} {p q : Position}

theorem eventsOf_push (s : MemorySource) (e : RawEvent) (contract : ContractId) :
    (s.push e).eventsOf contract =
      s.eventsOf contract ++ if e.contract = contract then [e] else [] := by
  simp only [push, eventsOf, Std.ExtTreeMap.getD_insert, Std.compare_eq_iff_eq]
  split
  · rename_i h
    rw [h]
  · simp

theorem eventsOf_pushAll (s : MemorySource) (es : List RawEvent) (contract : ContractId) :
    (s.pushAll es).eventsOf contract =
      s.eventsOf contract ++ es.filter (·.contract = contract) := by
  induction es generalizing s with
  | nil => simp [pushAll]
  | cons e es ih =>
    change ((s.push e).pushAll es).eventsOf contract = _
    rw [ih, eventsOf_push, List.append_assoc]
    by_cases h : e.contract = contract <;> simp [h]

theorem eventsOf_ofEvents (es : List RawEvent) (contract : ContractId) :
    (ofEvents es).eventsOf contract = es.filter (·.contract = contract) := by
  rw [ofEvents, eventsOf_pushAll]
  simp [empty, eventsOf]

theorem mem_select {e : RawEvent} :
    e ∈ s.select contract after ↔ e ∈ s.eventsOf contract ∧ after.all (· < e.position) := by
  rw [select, mem_sortEvents, List.mem_filter]

theorem length_select_le (s : MemorySource) (contract : ContractId) (after : Option Position) :
    (s.select contract after).length ≤ (s.eventsOf contract).length := by
  rw [select, sortEvents, List.length_mergeSort]
  exact List.length_filter_le _ _

theorem contract_of_mem_select {e : RawEvent} (h : e ∈ (ofEvents es).select contract after) :
    e.contract = contract := by
  have hmem := (mem_select.mp h).1
  rw [eventsOf_ofEvents] at hmem
  simpa using (List.mem_filter.mp hmem).2

theorem pairwise_select (s : MemorySource) (contract : ContractId) (after : Option Position) :
    (s.select contract after).Pairwise fun e f => e.position ≤ f.position :=
  pairwise_sortEvents _

theorem select_later (h : ∀ p, after = some p → p ≤ q) :
    s.select contract (some q) = (s.select contract after).filter (q < ·.position) := by
  rw [select, select, ← sortEvents_filter, List.filter_filter]
  congr 1
  apply List.filter_congr
  intro e _
  cases after with
  | none => simp
  | some p =>
    have hp := h p rfl
    rw [Bool.eq_iff_iff]
    simp only [Option.all_some, decide_eq_true_eq, Bool.and_eq_true]
    exact ⟨fun hq => ⟨hq, hp.trans_lt hq⟩, And.left⟩

theorem length_select_lt {n : Nat} (hn : (s.select contract after).length < n + 1)
    (h : ∀ p, after = some p → p ≤ q) {e : RawEvent} (he : e ∈ s.select contract after)
    (hle : e.position ≤ q) : (s.select contract (some q)).length < n := by
  have hshorter : ((s.select contract after).filter (q < ·.position)).length <
      (s.select contract after).length :=
    List.length_filter_lt_length_iff_exists.mpr ⟨e, he, by simpa using hle⟩
  rw [select_later h]
  omega

/-- The first of the selected events at a position is the one that was added first. -/
theorem find?_select (h : after.all (· < q)) :
    (s.select contract after).find? (·.position = q) =
      (s.eventsOf contract).find? (·.position = q) := by
  rw [← List.head?_filter, select, filter_position_sortEvents, List.filter_filter,
    ← List.head?_filter]
  congr 1
  apply List.filter_congr
  intro e _
  rw [Bool.eq_iff_iff, Bool.and_eq_true, decide_eq_true_eq]
  exact ⟨And.left, fun he => ⟨he, he ▸ h⟩⟩

end MemorySource

end EventIndex
