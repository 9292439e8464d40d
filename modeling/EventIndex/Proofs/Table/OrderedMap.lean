import Mathlib.Data.List.Sort
import Std.Data.ExtTreeMap

/-! # Ordered maps

Laying the bindings of one map over another, and adding a binding after all others. -/

namespace EventIndex

namespace OrderedMap

open Std

variable {α β : Type} [Ord α] [TransOrd α] [LawfulEqOrd α]

/-! ## Overlays -/

section Overlay

variable [DecidableEq α]

theorem getElem?_insertMany_toList (old new : ExtTreeMap α β) (k : α) :
    (old.insertMany new.toList)[k]? = (new[k]? <|> old[k]?) := by
  cases h : new[k]? with
  | some v =>
    have hmem : (k, v) ∈ new.toList := ExtTreeMap.mem_toList_iff_getElem?_eq_some.2 h
    exact ExtTreeMap.getElem?_insertMany_list_of_mem Std.compare_self
      new.distinct_keys_toList hmem
  | none =>
    have hfree : (new.toList.map Prod.fst).contains k = false := by
      simpa [← ExtTreeMap.mem_keys, ExtTreeMap.mem_iff_isSome_getElem?] using h
    exact ExtTreeMap.getElem?_insertMany_list_of_contains_eq_false hfree

theorem insertMany_toList_empty (old : ExtTreeMap α β) :
    old.insertMany (∅ : ExtTreeMap α β).toList = old := by
  apply ExtTreeMap.ext_getElem?
  intro k
  simp [getElem?_insertMany_toList]

theorem insertMany_toList_insert (old new : ExtTreeMap α β) (k : α) (v : β) :
    old.insertMany (new.insert k v).toList = (old.insertMany new.toList).insert k v := by
  apply ExtTreeMap.ext_getElem?
  intro l
  rw [getElem?_insertMany_toList, ExtTreeMap.getElem?_insert, ExtTreeMap.getElem?_insert,
    getElem?_insertMany_toList]
  by_cases h : compare k l = .eq
  · simp [h]
  · simp [h]

end Overlay

/-! ## Values in order -/

omit [LawfulEqOrd α] in
theorem values_eq_map_toList (m : ExtTreeMap α β) : m.values = m.toList.map Prod.snd := by
  have h : m.values = m.foldr (fun _ v vs => v :: vs) [] := rfl
  rw [h, ExtTreeMap.foldr_eq_foldr_toList]
  induction m.toList with
  | nil => rfl
  | cons x xs ih => simp [ih]

theorem mem_values_iff {m : ExtTreeMap α β} {v : β} : v ∈ m.values ↔ ∃ k : α, m[k]? = some v := by
  simp [values_eq_map_toList]

private def KeyLt (a b : α × β) : Prop :=
  compare a.1 b.1 = .lt

omit [LawfulEqOrd α] in
private theorem keyLt_irrefl (a : α × β) : ¬ KeyLt a a := by
  simp [KeyLt]

omit [LawfulEqOrd α] in
private theorem keyLt_asymm {a b : α × β} (h : KeyLt a b) : ¬ KeyLt b a := by
  have hgt : compare b.1 a.1 = .gt := OrientedCmp.gt_of_lt h
  simp [KeyLt, hgt]

theorem toList_insert_of_forall_lt {m : ExtTreeMap α β} {k : α} (v : β)
    (h : ∀ l u, m[l]? = some u → compare l k = .lt) :
    (m.insert k v).toList = m.toList ++ [(k, v)] := by
  have hk : m[k]? = none := by
    cases hm : m[k]? with
    | none => rfl
    | some u => simpa using h k u hm
  have hsorted : (m.toList ++ [(k, v)]).Pairwise KeyLt := by
    refine List.pairwise_append.mpr ⟨m.ordered_keys_toList, by simp, ?_⟩
    intro a ha b hb
    obtain rfl : b = (k, v) := by simpa using hb
    exact h a.1 a.2 (ExtTreeMap.mem_toList_iff_getElem?_eq_some.mp ha)
  have : Std.Irrefl (KeyLt (α := α) (β := β)) := ⟨keyLt_irrefl⟩
  have : Std.Antisymm (KeyLt (α := α) (β := β)) :=
    ⟨fun _ _ hab hba => absurd hba (keyLt_asymm hab)⟩
  have hinsert : (m.insert k v).toList.Pairwise KeyLt := ExtTreeMap.ordered_keys_toList
  refine List.Pairwise.eq_of_mem_iff hinsert hsorted ?_
  rintro ⟨l, u⟩
  rw [ExtTreeMap.mem_toList_iff_getElem?_eq_some, ExtTreeMap.getElem?_insert, List.mem_append,
    ExtTreeMap.mem_toList_iff_getElem?_eq_some, List.mem_singleton, Prod.mk.injEq]
  by_cases hl : k = l
  · subst l
    simp [hk, eq_comm]
  · simp [hl, Ne.symm hl]

theorem values_insert_of_forall_lt {m : ExtTreeMap α β} {k : α} (v : β)
    (h : ∀ l u, m[l]? = some u → compare l k = .lt) :
    (m.insert k v).values = m.values ++ [v] := by
  simp [values_eq_map_toList, toList_insert_of_forall_lt v h]

end OrderedMap

end EventIndex
