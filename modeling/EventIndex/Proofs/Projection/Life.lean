import EventIndex.Proofs.Projection.PerEntity
import EventIndex.Proofs.Projection.Positions

/-! # The life of a row

The row of an entity is made by the logged events about this entity, up to the first one that is
refused. Each of them has been checked, is after all positions of the row that it met, and was
applied. So what holds of a row is proved by induction on these events. -/

namespace EventIndex

theorem toNat_add_one_of_lt {n : UInt32} (h : n.toNat + 1 < UInt32.size) :
    (n + 1).toNat = n.toNat + 1 := by
  rw [UInt32.toNat_add]
  exact Nat.mod_eq_of_lt h

theorem Payload.exists_write_of_step_none {contract : ContractId} {p : Position} (e : Payload)
    {t : Transition e.kind.Row} (h : e.step contract p none = .ok t) : ∃ row, t = .write row := by
  cases e with
  | tradeExecuted e | proposalCreated e | rewardAdded e | grant e =>
    exact ⟨_, (Except.ok.inj h).symm⟩
  | proposalApproved e | proposalRejected e | proposalCancelled e | proposalExecuted e => cases h
  | rewardClaimed e | claim e | revoke e => cases h

theorem check_of_decode {topic : Topic} {v : Json} {position : Position} {p : Payload}
    (h : decode topic v position = .ok (.recognized p)) : p.check = .ok () := by
  unfold decode decodePayload at h
  split at h
  · cases h
  · cases h
  · rename_i q _
    cases hcheck : q.check with
    | error flaw => simp [hcheck, Except.map, Except.mapError] at h
    | ok u =>
      obtain rfl : q = p := by simpa [hcheck, Except.map, Except.mapError] using h
      exact hcheck

namespace Entity

/-- What the events say of the entity, up to the one that froze it. -/
def facts (e : Entity) (es : List RawEvent) (q : Option Quarantine) :
    List (Position × e.Subject) :=
  (es.filter fun x => q.all fun q => x.position < q.position).filterMap e.fact?

/-- Events that have made the row of the entity, each by its transition. -/
inductive Life (contract : ContractId) (e : Entity) :
    List (Position × e.Subject) → Option e.kind.Row → Prop
  | nil : Life contract e [] none
  | step {fs : List (Position × e.Subject)} {row : Option e.kind.Row} {x : Position × e.Subject}
    {t : Transition e.kind.Row} (h : Life contract e fs row) (hcheck : x.2.val.check = .ok ())
    (hafter : ∀ old, row = some old → ∀ q ∈ e.kind.rowPositions old, q < x.1)
    (hstep : e.step contract x.1 x.2 row = .ok t) : Life contract e (fs ++ [x]) (t.after row)

variable {contract : ContractId} {e : Entity}

theorem exists_write_of_step_none {p : Position} {x : e.Subject} {t : Transition e.kind.Row}
    (h : e.step contract p x none = .ok t) : ∃ row, t = .write row := by
  obtain ⟨x, rfl⟩ := x
  exact x.exists_write_of_step_none h

theorem Life.eq_nil {fs : List (Position × e.Subject)} {row : Option e.kind.Row}
    (h : e.Life contract fs row) (hrow : row = none) : fs = [] := by
  cases h with
  | nil => rfl
  | @step fs row x t h _ _ hstep =>
    cases row with
    | none =>
      obtain ⟨row, rfl⟩ := exists_write_of_step_none hstep
      cases hrow
    | some old => cases t <;> cases hrow

/-! ## Facts of the log -/

theorem fact?_of_decode {x : RawEvent} {p : Payload}
    (h : decode (.classify x.topic) x.payload x.position = .ok (.recognized p)) :
    fact? p.target x = some (x.position, ⟨p, rfl⟩) := by
  unfold fact?
  rw [h]
  exact dif_pos rfl

theorem fact?_eq_some {x : RawEvent} {f : Position × e.Subject} (h : e.fact? x = some f) :
    f.1 = x.position ∧ f.2.val.check = .ok () := by
  unfold fact? at h
  split at h
  · rename_i p hdecode
    split at h
    · cases h
      exact ⟨rfl, check_of_decode hdecode⟩
    · cases h
  · cases h

theorem facts_append_singleton (e : Entity) (es : List RawEvent) (x : RawEvent)
    (q : Option Quarantine) : e.facts (es ++ [x]) q =
      e.facts es q ++ if q.all (x.position < ·.position) then (e.fact? x).toList else [] := by
  simp only [facts, List.filter_append, List.filterMap_append]
  congr 1
  by_cases hx : q.all (x.position < ·.position)
  · cases hfact : e.fact? x <;> simp [hx, hfact]
  · simp [hx]

theorem facts_of_after (e : Entity) {es : List RawEvent} (q : Quarantine)
    (hq : ∀ x ∈ es, x.position < q.position) : e.facts es (some q) = e.facts es none := by
  have hfilter : es.filter (fun x => (some q).all (x.position < ·.position)) = es := by
    rw [List.filter_eq_self]
    simpa using hq
  rw [facts, hfilter, facts]
  simp

theorem positions_history (e : Entity) {es : List RawEvent}
    (hcontract : ∀ x ∈ es, x.contract = contract) {x : RawEvent} (hx : x.After es) :
    (∀ old, (e.history contract es).row = some old →
      ∀ q ∈ e.kind.rowPositions old, q < x.position) ∧
      ∀ q, (e.history contract es).quarantine = some q → q.position < x.position := by
  have hwithin : (Tables.derive es).Within (· < x.position) := Tables.within_derive_lt hx
  rw [← Tables.stateOf_derive hcontract]
  exact ⟨hwithin.row e.kind e.id, hwithin.quarantine e⟩

/-- The row is made by the events up to the one that froze the entity. -/
theorem life_history (e : Entity) {es : List RawEvent} (hes : Rising es)
    (hcontract : ∀ x ∈ es, x.contract = contract) :
    e.Life contract (e.facts es (e.history contract es).quarantine)
      (e.history contract es).row := by
  induction es using List.reverseRecOn with
  | nil => exact .nil
  | append_singleton es x ih =>
    have hbefore : ∀ y ∈ es, y.contract = contract := fun y hy =>
      hcontract y (List.mem_append_left [x] hy)
    have hlife := ih (hes.of_isPrefix (List.prefix_append es [x])) hbefore
    have hx : x.After es := fun f hf => hes.lt_of_mem_append hf (by simp)
    obtain ⟨hrow, hquarantine⟩ := e.positions_history hbefore hx
    rw [history_append_singleton]
    generalize e.history contract es = s at hlife hrow hquarantine ⊢
    cases hfact : e.fact? x with
    | none => simpa [facts_append_singleton, hfact] using hlife
    | some f =>
      obtain ⟨position, subject⟩ := f
      obtain ⟨rfl, hcheck⟩ := fact?_eq_some hfact
      obtain ⟨row, quarantine⟩ := s
      dsimp only at hlife hrow hquarantine
      simp only [Option.map_some, Option.getD_some, follow]
      cases quarantine with
      | some q =>
        -- The entity was frozen before this event.
        have hlate : ¬ x.position < q.position := (hquarantine q rfl).asymm
        simpa [facts_append_singleton, hlate] using hlife
      | none =>
        cases hstep : e.step contract x.position subject row with
        | error refusal =>
          have hsame := e.facts_of_after ⟨contract, e, x.position, refusal.message⟩ hx
          simpa [facts_append_singleton, hsame] using hlife
        | ok t =>
          have hlife' := hlife.step hcheck hrow hstep
          cases t <;> simpa [facts_append_singleton, hfact, Transition.after] using hlife'

end Entity

namespace Partition.Holds

variable {contract : ContractId} {p : Partition} {es : List RawEvent}

theorem row?_eq (h : p.Holds contract es) (e : Entity) :
    p.tables.row? e.kind e.id = (e.history contract es).row := by
  rw [← h.entries_eq, ← h.stateOf_eq]
  rfl

/-- The row of an entity in the committed data is made by the logged events about it, up to the one
that froze it. -/
theorem life (h : p.Holds contract es) (e : Entity) :
    e.Life contract (e.facts (p.entries.map LogEntry.toRaw) (p.tables.quarantine? e))
      (p.tables.row? e.kind e.id) := by
  have hstate := h.stateOf_eq e
  have hlife := e.life_history h.log.rising h.log.contract_eq
  rw [h.entries_eq] at hstate ⊢
  rwa [← hstate] at hlife

end Partition.Holds

end EventIndex
