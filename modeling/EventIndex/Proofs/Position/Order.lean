import EventIndex.Position
import Mathlib.Order.Defs.LinearOrder
import Mathlib.Order.Basic

/-! # The order of positions

Positions are linearly ordered, so the lemmas about linear orders hold of them. -/

namespace EventIndex

namespace Position

theorem lt_iff_compare {p q : Position} : p < q ↔ compare p q = .lt :=
  Iff.rfl

theorem le_iff_compare {p q : Position} : p ≤ q ↔ (compare p q).isLE :=
  Iff.rfl

private theorem le_antisymm' {p q : Position} (hpq : p ≤ q) (hqp : q ≤ p) : p = q :=
  Std.LawfulEqOrd.eq_of_compare (Std.OrientedCmp.isLE_antisymm hpq hqp)

private theorem lt_iff_le_not_ge' (p q : Position) : p < q ↔ p ≤ q ∧ ¬ q ≤ p := by
  rw [lt_iff_compare, le_iff_compare, le_iff_compare, Std.OrientedOrd.eq_swap (a := q) (b := p)]
  cases compare p q <;> simp

private theorem le_total' (p q : Position) : p ≤ q ∨ q ≤ p := by
  rw [le_iff_compare, le_iff_compare, Std.OrientedOrd.eq_swap (a := q) (b := p)]
  cases compare p q <;> simp

private theorem compare_eq' (p q : Position) : compare p q = compareOfLessAndEq p q := by
  simp only [compareOfLessAndEq, lt_iff_compare, ← Std.compare_eq_iff_eq]
  cases compare p q <;> rfl

instance : LinearOrder Position where
  le_refl p := Std.ReflCmp.isLE_rfl
  le_trans p q r := Std.TransCmp.isLE_trans
  le_antisymm p q := le_antisymm'
  lt_iff_le_not_ge := lt_iff_le_not_ge'
  le_total := le_total'
  max := max
  max_def _ _ := rfl
  toDecidableLE := inferInstance
  toDecidableLT := inferInstance
  compare_eq_compareOfLessAndEq := compare_eq'

instance : Std.LawfulOrderLeftLeaningMax Position where
  max_eq_left _ _ := max_eq_left
  max_eq_right _ _ h := max_eq_right (le_of_not_ge h)

end Position

end EventIndex
