/-!
# Token amounts

Signed amounts of 128 bits. Sums are checked, so no amount ever wraps.
-/

namespace EventIndex

/-- Two to the power of 127. -/
def amountLimit : Int := 0x80000000000000000000000000000000

/-- An integer of 128 bits with its sign. -/
structure Amount where
  val : Int
  min_le : -amountLimit ≤ val
  lt_max : val < amountLimit
deriving DecidableEq

namespace Amount

def ofInt? (n : Int) : Option Amount :=
  if h : -amountLimit ≤ n ∧ n < amountLimit then some ⟨n, h.1, h.2⟩ else none

/-- The amount nearest to `n`. -/
def clamp (n : Int) : Amount :=
  ⟨max (-amountLimit) (min n (amountLimit - 1)), by simp only [amountLimit]; omega,
    by simp only [amountLimit]; omega⟩

instance : OfNat Amount 0 := ⟨⟨0, by decide, by decide⟩⟩

/-- The sum, unless it is out of range. -/
def checkedAdd (a b : Amount) : Option Amount :=
  ofInt? (a.val + b.val)

/-- The difference, held to the range of amounts. -/
def saturatingSub (a b : Amount) : Amount :=
  clamp (a.val - b.val)

def text (a : Amount) : String :=
  toString a.val

theorem ofInt?_eq_some_iff {n : Int} {a : Amount} : ofInt? n = some a ↔ n = a.val := by
  constructor
  · intro h
    simp only [ofInt?] at h
    split at h
    · cases h; rfl
    · cases h
  · rintro rfl
    exact dif_pos ⟨a.min_le, a.lt_max⟩

@[simp] theorem ofInt?_val (a : Amount) : ofInt? a.val = some a :=
  ofInt?_eq_some_iff.2 rfl

theorem checkedAdd_eq_some_iff {a b c : Amount} : a.checkedAdd b = some c ↔ a.val + b.val = c.val :=
  ofInt?_eq_some_iff

theorem val_clamp {n : Int} (h : -amountLimit ≤ n) (h' : n < amountLimit) : (clamp n).val = n := by
  simp only [clamp]; omega

end Amount

end EventIndex
