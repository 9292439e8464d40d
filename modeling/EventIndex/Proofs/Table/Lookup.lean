import EventIndex.Proofs.Table.OrderedMap
import EventIndex.Row.Table

/-! # Looking up rows

What is found in tables after a row was stored, an entity frozen, or tables laid over others. -/

namespace EventIndex

namespace Tables

open OrderedMap

variable (t old new : Tables)

@[simp] theorem row?_empty (k : EntityKind) (id : UInt64) : (∅ : Tables).row? k id = none := by
  cases k <;> exact Std.ExtTreeMap.getElem?_empty

@[simp] theorem quarantine?_empty (e : Entity) : (∅ : Tables).quarantine? e = none :=
  Std.ExtTreeMap.getElem?_empty

/-! ## Storing and freezing -/

theorem row?_insert (k : EntityKind) (row : k.Row) (id : UInt64) :
    (t.insert k row).row? k id = if k.rowId row = id then some row else t.row? k id := by
  have h : (t.insert k row).row? k id =
      if compare (k.rowId row) id = .eq then some row else t.row? k id := by
    cases k <;> exact Std.ExtTreeMap.getElem?_insert
  simpa using h

theorem row?_insert_of_ne {k l : EntityKind} (h : k ≠ l) (row : k.Row) (id : UInt64) :
    (t.insert k row).row? l id = t.row? l id := by
  cases k <;> cases l <;> first | rfl | exact absurd rfl h

@[simp] theorem quarantine?_insert (k : EntityKind) (row : k.Row) (e : Entity) :
    (t.insert k row).quarantine? e = t.quarantine? e := by
  cases k <;> rfl

@[simp] theorem row?_freeze (q : Quarantine) (k : EntityKind) (id : UInt64) :
    (t.freeze q).row? k id = t.row? k id := by
  cases k <;> rfl

theorem quarantine?_freeze (q : Quarantine) (e : Entity) :
    (t.freeze q).quarantine? e = if q.entity = e then some q else t.quarantine? e := by
  simp [freeze, quarantine?, Std.ExtTreeMap.getElem?_insert]

/-! ## Overlays -/

theorem row?_overlay (k : EntityKind) (id : UInt64) :
    (old.overlay new).row? k id = (new.row? k id <|> old.row? k id) := by
  cases k <;> exact getElem?_insertMany_toList _ _ _

theorem quarantine?_overlay (e : Entity) :
    (old.overlay new).quarantine? e = (new.quarantine? e <|> old.quarantine? e) :=
  getElem?_insertMany_toList _ _ _

@[simp] theorem overlay_empty : old.overlay ∅ = old := by
  have h : old.overlay ∅ = ⟨old.trades.insertMany (∅ : Table .trade).toList,
      old.proposals.insertMany (∅ : Table .proposal).toList,
      old.rewards.insertMany (∅ : Table .reward).toList,
      old.grants.insertMany (∅ : Table .grant).toList,
      old.quarantined.insertMany (∅ : Std.ExtTreeMap Entity Quarantine).toList⟩ := rfl
  simp only [h, insertMany_toList_empty]

theorem overlay_insert (k : EntityKind) (row : k.Row) :
    old.overlay (new.insert k row) = (old.overlay new).insert k row := by
  cases k <;> simp [overlay, insert, insertMany_toList_insert]

theorem overlay_freeze (q : Quarantine) :
    old.overlay (new.freeze q) = (old.overlay new).freeze q := by
  simp [overlay, freeze, insertMany_toList_insert]

end Tables

end EventIndex
