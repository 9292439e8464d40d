import EventIndex.Proofs.Projection.Life

/-! # Rows while the log grows

As events are added to the log, the row of an entity goes from one state to the next by the writes
of these events. A relation that all writes over a row keep relates its states over any time. -/

namespace EventIndex

open Relation

/-- Each write over a row of the entity, after all of its positions, takes it to a related row. -/
def Entity.Moves (contract : ContractId) (e : Entity) (R : e.kind.Row → e.kind.Row → Prop) : Prop :=
  ∀ (old row : e.kind.Row) (position : Position) (x : e.Subject),
    (∀ q ∈ e.kind.rowPositions old, q < position) →
    e.step contract position x (some old) = .ok (.write row) → R old row

section Evolution

variable {contract : ContractId} {e : Entity} {R : e.kind.Row → e.kind.Row → Prop}
  {es fs : List RawEvent} {row : e.kind.Row}

theorem Entity.Moves.history_append (hR : e.Moves contract R) (hrising : Rising (es ++ fs))
    (hcontract : ∀ x ∈ es ++ fs, x.contract = contract)
    (hrow : (e.history contract es).row = some row) :
    ∃ row', (e.history contract (es ++ fs)).row = some row' ∧ ReflTransGen R row row' := by
  induction fs using List.reverseRecOn with
  | nil => exact ⟨row, by simpa using hrow, .refl⟩
  | append_singleton fs x ih =>
    rw [← List.append_assoc] at hrising hcontract ⊢
    have hbefore : ∀ y ∈ es ++ fs, y.contract = contract := fun y hy =>
      hcontract y (List.mem_append_left [x] hy)
    obtain ⟨row', hrow', hmoved⟩ :=
      ih (hrising.of_isPrefix (List.prefix_append (es ++ fs) [x])) hbefore
    have hx : x.After (es ++ fs) := fun f hf => hrising.lt_of_mem_append hf (by simp)
    obtain ⟨hpositions, -⟩ := e.positions_history hbefore hx
    rw [Entity.history_append_singleton]
    generalize e.history contract (es ++ fs) = s at hrow' hpositions ⊢
    obtain ⟨_, quarantine⟩ := s
    obtain rfl : _ = some row' := hrow'
    cases hfact : e.fact? x with
    | none => exact ⟨row', rfl, hmoved⟩
    | some f =>
      obtain ⟨hposition, -⟩ := Entity.fact?_eq_some hfact
      simp only [Option.map_some, Option.getD_some, Entity.follow]
      cases quarantine with
      | some q => exact ⟨row', rfl, hmoved⟩
      | none =>
        cases hstep : e.step contract f.1 f.2 (some row') with
        | error refusal => exact ⟨row', rfl, hmoved⟩
        | ok t =>
          cases t with
          | unchanged => exact ⟨row', rfl, hmoved⟩
          | write next =>
            rw [hposition] at hstep
            exact ⟨next, rfl, hmoved.tail (hR row' next _ _ (hpositions row' rfl) hstep)⟩

/-- What holds over the writes of further events holds over any time. -/
theorem Entity.Moves.growsTo (hR : e.Moves contract R) {p p' : Partition}
    (h : p.GrowsTo contract p') (hrow : p.tables.row? e.kind e.id = some row) :
    ∃ row', p'.tables.row? e.kind e.id = some row' ∧ ReflTransGen R row row' := by
  obtain ⟨es, fs, hp, hp'⟩ := h.holds
  rw [hp.row?_eq] at hrow
  rw [hp'.row?_eq]
  exact hR.history_append hp'.log.rising hp'.log.contract_eq hrow

end Evolution

end EventIndex
