import EventIndex.Proofs.Batch.Invariant

/-! # Processing over a rising log

A batch adds its maxima to the log and drops its late events. A rebuild goes over the log that is
there and finds every event ahead. -/

namespace EventIndex

namespace Delivery

variable (d : Delivery) (log : List RawEvent)

@[simp] theorem indexedMore_indexedMore (m n : Nat) :
    (d.indexedMore m).indexedMore n = d.indexedMore (m + n) := by
  simp [indexedMore, Nat.add_assoc]

@[simp] theorem recognizedMore_recognizedMore (m n : Nat) :
    (d.recognizedMore m).recognizedMore n = d.recognizedMore (m + n) := by
  simp [recognizedMore, Nat.add_assoc]

theorem indexedMore_dropped (es : List RawEvent) (n : Nat) :
    (d.dropped log es).indexedMore n = (d.indexedMore n).dropped log es := rfl

theorem dropped_nil : d.dropped log [] = d := by
  simp [dropped]

theorem dropped_cons (e : RawEvent) (es : List RawEvent) :
    d.dropped log (e :: es) = (d.dropped log [e]).dropped log es := by
  have h : e :: es = [e] ++ es := rfl
  rw [h]
  simp only [dropped, List.countP_append, List.filter_append, List.map_append, List.append_assoc,
    Nat.add_assoc]

/-- Events that the log gains later make no difference for a late event. -/
theorem dropped_of_not_after {done rest : List RawEvent} (h : Rising (done ++ rest))
    {e : RawEvent} (he : ¬ e.After done) : d.dropped (done ++ rest) [e] = d.dropped done [e] := by
  have hmem : e ∈ done ++ rest ↔ e ∈ done := h.mem_append_iff_of_not_after he
  have hany : (done ++ rest).any (·.position = e.position) =
      done.any (·.position = e.position) := by
    rw [Bool.eq_iff_iff, List.any_eq_true, List.any_eq_true]
    simpa only [decide_eq_true_eq] using h.exists_position_iff_of_not_after he
  generalize done ++ rest = log at hmem hany
  by_cases hin : e ∈ done
  · simp [dropped, hmem, hin]
  · simp [dropped, hmem, hin, hany]

end Delivery

namespace Course

variable {contract : ContractId} {s : Course} {done ahead log : List RawEvent}
  {xs : List (RawEvent × Timestamp)}

/-! ## Taking all events -/

@[simp] theorem checkpoint_take (s : Course) (x : RawEvent × Timestamp) :
    (s.take x).data.checkpoint = s.data.checkpoint := by
  simp only [take]
  split
  · simp
  · simp [advance]

@[simp] theorem takeAll_nil (s : Course) : s.takeAll [] = s := rfl

@[simp] theorem takeAll_cons (s : Course) (x : RawEvent × Timestamp)
    (xs : List (RawEvent × Timestamp)) : s.takeAll (x :: xs) = (s.take x).takeAll xs := rfl

@[simp] theorem checkpoint_takeAll (s : Course) (xs : List (RawEvent × Timestamp)) :
    (s.takeAll xs).data.checkpoint = s.data.checkpoint := by
  induction xs generalizing s with
  | nil => rfl
  | cons x xs ih => exact (ih (s.take x)).trans (checkpoint_take s x)

theorem heading_take (s : Course) (x : RawEvent × Timestamp) :
    (s.take x).report.heading = (s.report.eventsSeen + 1, s.report.lastPosition) := by
  simp only [take]
  split
  · exact s.see.heading_drop _ x.1
  · exact s.see.heading_index x.1 x.2

theorem heading_takeAll (s : Course) (xs : List (RawEvent × Timestamp)) :
    (s.takeAll xs).report.heading =
      (s.report.eventsSeen + xs.length, s.report.lastPosition) := by
  induction xs generalizing s with
  | nil => rfl
  | cons x xs ih =>
    obtain ⟨hseen, hposition⟩ := Prod.mk.inj (s.heading_take x)
    rw [takeAll_cons, ih, hseen, hposition, List.length_cons, Nat.add_right_comm, Nat.add_assoc]

namespace Holds

/-- The maxima are logged and applied, the late events dropped. These are checked against any log
that goes on from the one after the batch. -/
theorem takeAll (h : s.Holds contract done []) (hxs : ∀ x ∈ xs, x.1.contract = contract)
    (hlog : done ++ maxima done (xs.map Prod.fst) <+: log) (hrising : Rising log) :
    (s.takeAll xs).Holds contract (done ++ maxima done (xs.map Prod.fst)) [] ∧
      (s.takeAll xs).report.delivery =
        (s.report.delivery.indexedMore (maxima done (xs.map Prod.fst)).length).dropped log
          (late done (xs.map Prod.fst)) := by
  induction xs generalizing s done with
  | nil =>
    refine ⟨by simpa [maxima] using h, ?_⟩
    exact (Delivery.dropped_nil _ _).symm
  | cons x xs ih =>
    obtain ⟨e, now⟩ := x
    have he : e.contract = contract := hxs (e, now) (by simp)
    have hxs' : ∀ x ∈ xs, x.1.contract = contract := fun x hx => hxs x (by simp [hx])
    by_cases hafter : e.After done
    · -- The event is a maximum: it ends the log now, and the others are compared with it.
      obtain ⟨hnext, hreport⟩ := h.take_new he hafter now
      rw [List.map_cons, maxima_cons_of_after hafter, List.append_cons done] at hlog ⊢
      obtain ⟨hholds, hdelivery⟩ := ih hnext hxs' hlog
      refine ⟨hholds, hdelivery.trans ?_⟩
      rw [hreport, Delivery.indexedMore_indexedMore, late_cons_of_after hafter, List.length_cons,
        Nat.add_comm]
    · -- The event is late, and what the others are compared with stays as it was.
      obtain ⟨-, -, hreport⟩ := h.take_late hafter now
      rw [List.map_cons, maxima_cons_of_not_after hafter] at hlog ⊢
      obtain ⟨hholds, hdelivery⟩ := ih (h.holds_take_late hafter now) hxs' hlog
      refine ⟨hholds, hdelivery.trans ?_⟩
      obtain ⟨rest, rfl⟩ := (List.prefix_append _ _).trans hlog
      rw [hreport, List.append_nil, Delivery.indexedMore_dropped, late_cons_of_not_after hafter,
        Delivery.dropped_cons _ (done ++ rest), Delivery.dropped_of_not_after _ hrising hafter]

theorem takeAll_late (h : s.Holds contract done [])
    (hlate : ∀ x ∈ xs, ¬ x.1.After done) :
    (s.takeAll xs).data = s.data ∧ (s.takeAll xs).tracker = s.tracker := by
  induction xs generalizing s with
  | nil => exact ⟨rfl, rfl⟩
  | cons x xs ih =>
    obtain ⟨e, now⟩ := x
    have hfirst : ¬ e.After done := hlate (e, now) (by simp)
    obtain ⟨hdata, htracker, -⟩ := h.take_late hfirst now
    obtain ⟨hdata', htracker'⟩ :=
      ih (h.holds_take_late hfirst now) fun x hx => hlate x (by simp [hx])
    exact ⟨hdata'.trans hdata, htracker'.trans htracker⟩

theorem takeAll_ahead (h : s.Holds contract done ahead) (hxs : xs.map Prod.fst = ahead) :
    (s.takeAll xs).Holds contract (done ++ ahead) [] ∧
      (s.takeAll xs).report.delivery = s.report.delivery.recognizedMore ahead.length := by
  induction xs generalizing s done ahead with
  | nil =>
    subst hxs
    exact ⟨by simpa using h, rfl⟩
  | cons x xs ih =>
    obtain ⟨e, now⟩ := x
    obtain rfl : e :: xs.map Prod.fst = ahead := hxs
    obtain ⟨hnext, hreport⟩ := h.take_ahead now
    obtain ⟨hholds, hdelivery⟩ := ih hnext rfl
    refine ⟨by simpa using hholds, hdelivery.trans ?_⟩
    rw [hreport, Delivery.recognizedMore_recognizedMore, List.length_cons, Nat.add_comm]

end Holds

end Course

end EventIndex
