import EventIndex.Proofs.Projection.Target
import EventIndex.Proofs.Store.Direct

/-! # Rows derived from events

The projection of an event as a function of the tables, and the tables that a log gives when its
events are projected one after the other. -/

namespace EventIndex

namespace Tables

/-- What comes of a decoded event, and the tables after it. -/
def apply (contract : ContractId) (p : Position) (t : Tables) :
    Decoded → Except Refusal Applied × Tables
  | .unrecognized .. => (.ok .ignored, t)
  | .recognized e =>
    match t.quarantine? e.target with
    | some q => (.error (.quarantined e.target q.position), t)
    | none =>
      match e.step contract p (t.row? e.kind e.id) with
      | .error r => (.error r, t.freeze ⟨contract, e.target, p, r.message⟩)
      | .ok .unchanged => (.ok .unchanged, t)
      | .ok (.write row) => (.ok .written, t.insert e.kind row)

section Apply

variable {contract : ContractId} {p : Position} {t : Tables} {e : Payload}

theorem apply_write {row : e.kind.Row} (hq : t.quarantine? e.target = none)
    (hs : e.step contract p (t.row? e.kind e.id) = .ok (.write row)) :
    t.apply contract p (.recognized e) = (.ok .written, t.insert e.kind row) := by
  simp [apply, hq, hs]

theorem apply_error {r : Refusal} (hq : t.quarantine? e.target = none)
    (hs : e.step contract p (t.row? e.kind e.id) = .error r) :
    t.apply contract p (.recognized e) =
      (.error r, t.freeze ⟨contract, e.target, p, r.message⟩) := by
  simp [apply, hq, hs]

end Apply

/-- The tables after an event of the log; one that cannot be decoded does nothing. -/
def absorb (t : Tables) (e : RawEvent) : Tables :=
  match decode (.classify e.topic) e.payload e.position with
  | .error _ => t
  | .ok d => (t.apply e.contract e.position d).2

/-- The tables that events give, one after the other. -/
def derive (es : List RawEvent) : Tables :=
  es.foldl absorb ∅

@[simp] theorem derive_nil : derive [] = ∅ := rfl

theorem derive_append_singleton (es : List RawEvent) (e : RawEvent) :
    derive (es ++ [e]) = (derive es).absorb e := by
  simp [derive]

end Tables

open Program

section Weakest

variable (contract : ContractId) (p : Position) (data : Partition)

private theorem wp_quarantine {r : Refusal} (h : data.tables.quarantine? r.entity = none)
    (Q : Except StorageError Unit → Partition → Prop) :
    (quarantine contract p r).run.wp Partition.rule Q data =
      Q (.ok ())
        { data with tables := data.tables.freeze ⟨contract, r.entity, p, r.message⟩ } := by
  rw [quarantine, wp_run_bind, Session.wp_note]
  simp [Partition.request, h]

theorem wp_apply (d : Decoded)
    (Q : Except StorageError (Except Refusal Applied) → Partition → Prop) :
    (apply contract p d).run.wp Partition.rule Q data =
      Q (.ok (data.tables.apply contract p d).1)
        { data with tables := (data.tables.apply contract p d).2 } := by
  cases d with
  | unrecognized topic raw => simp [apply, Tables.apply]
  | recognized e =>
    cases hq : data.tables.quarantine? e.target with
    | some q =>
      rw [apply, wp_run_bind, Session.wp_ask]
      simp [Tables.apply, Partition.request, hq]
    | none =>
      simp only [apply, wp_run_bind, Session.wp_ask, Partition.request, hq, applyToRow,
        Tables.apply]
      cases hs : e.step contract p (data.tables.row? e.kind e.id) with
      | error r =>
        have hr : r.entity = e.target := Payload.entity_of_step_error hs
        simp [wp_quarantine, hr, hq, Except.map]
      | ok t =>
        cases t with
        | unchanged => simp
        | write row =>
          cases e.remark? (data.tables.row? e.kind e.id) with
          | none => simp [Partition.request, Except.map]
          | some line =>
            simp only [wp_run_bind, Session.wp_note, Session.wp_ask, Partition.request, wp_run_pure]

end Weakest

end EventIndex
