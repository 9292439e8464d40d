import EventIndex.Text.Decimal
import Mathlib.Data.Nat.Digits.Defs
import Mathlib.Data.List.TakeWhile

/-! # Scanning a text

What the scanners of values and of instants share: a run goes on where the one before it stopped,
and a run of digits ends where another character follows. -/

namespace EventIndex

section

variable {σ ε α β : Type}

theorem run_bind_of {s : StateT σ (Except ε) α} {f : α → StateT σ (Except ε) β} {cs rest : σ}
    {a : α} (h : s.run cs = .ok (a, rest)) : (s >>= f).run cs = (f a).run rest := by
  rw [StateT.run_bind, h]
  rfl

theorem run_map_of {s : StateT σ (Except ε) α} {f : α → β} {cs rest : σ} {a : α}
    (h : s.run cs = .ok (a, rest)) : (f <$> s).run cs = .ok (f a, rest) := by
  rw [StateT.run_map, h]
  rfl

end

namespace Text

/-- A run of one or more digits. -/
def IsDigits (cs : List Char) : Prop :=
  cs ≠ [] ∧ ∀ c ∈ cs, c.isDigit

/-- The text goes on with no digit. -/
def NoDigit : List Char → Prop
  | [] => True
  | c :: _ => c.isDigit = false

theorem takeWhile_isDigit {ds rest : List Char} (hds : ∀ c ∈ ds, c.isDigit)
    (hrest : NoDigit rest) : (ds ++ rest).takeWhile Char.isDigit = ds := by
  rw [List.takeWhile_append_of_pos hds]
  cases rest with
  | nil => simp
  | cons c rest => simp [show c.isDigit = false from hrest]

theorem isDigits_toDigits (n : Nat) : IsDigits (Nat.toDigits 10 n) := by
  refine ⟨?_, fun c hc => Nat.isDigit_of_mem_toDigits (by decide) (by decide) hc⟩
  rw [Nat.toDigits_eq_if (by decide)]
  split <;> simp

theorem head?_toDigits {n : Nat} (hn : n ≠ 0) : (Nat.toDigits 10 n).head? ≠ some '0' := by
  induction n using Nat.strongRecOn with
  | ind n ih =>
    rw [Nat.toDigits_eq_if (by decide)]
    split
    · next hlt =>
      have hdigit : ∀ d < 10, d ≠ 0 → Nat.digitChar d ≠ '0' := by decide
      simpa using hdigit n hlt hn
    · next hge =>
      have hhead := ih (n / 10) (by omega) (by omega)
      have hne := (isDigits_toDigits (n / 10)).1
      cases h : Nat.toDigits 10 (n / 10) with
      | nil => exact absurd h hne
      | cons c cs => simpa [h] using hhead

theorem toDigits_ne_zero_cons (n : Nat) (c : Char) (cs : List Char) :
    Nat.toDigits 10 n ≠ '0' :: c :: cs := by
  intro h
  by_cases hn : n = 0
  · subst hn
    cases h
  · exact head?_toDigits hn (by rw [h]; rfl)

theorem toList_toString (n : Int) :
    (toString n).toList = (if n < 0 then ['-'] else []) ++ Nat.toDigits 10 n.natAbs := by
  rw [Int.toString_eq_repr, Int.repr_eq_if]
  by_cases h : n < 0
  · have hneg : ¬ 0 ≤ n := by omega
    have habs : (-n).toNat = n.natAbs := by omega
    simp [h, hneg, habs, Nat.toList_repr]
  · have hnonneg : 0 ≤ n := by omega
    have habs : n.toNat = n.natAbs := by omega
    simp [h, hnonneg, habs, Nat.toList_repr]

theorem intOfDigits?_toString (n : Int) : intOfDigits? (toString n).toList = some n := by
  rw [toList_toString]
  split
  · have hvalue : -Int.ofNat n.natAbs = n := by simp only [Int.ofNat_eq_natCast]; omega
    rw [List.singleton_append, intOfDigits?, natOfDigits?_toDigits, Option.map_some, hvalue]
  · have hvalue : Int.ofNat n.natAbs = n := by simp only [Int.ofNat_eq_natCast]; omega
    rw [List.nil_append]
    unfold intOfDigits?
    split
    · next cs hcs =>
      have hminus := (isDigits_toDigits n.natAbs).2 '-' (by simp [hcs])
      cases hminus
    · rw [natOfDigits?_toDigits, Option.map_some, hvalue]

theorem intOfSigned?_toString (n : Int) : intOfSigned? (toString n).toList = some n := by
  unfold intOfSigned?
  split
  · next cs hcs =>
    have hplus : '+' ∈ (toString n).toList := hcs ▸ List.mem_cons_self
    rw [toList_toString] at hplus
    rcases List.mem_append.mp hplus with h | h
    · split at h <;> simp at h
    · have hdigit := (isDigits_toDigits n.natAbs).2 '+' h
      cases hdigit
  · exact intOfDigits?_toString n

end Text

end EventIndex
