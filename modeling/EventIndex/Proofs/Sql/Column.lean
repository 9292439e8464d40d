import EventIndex.Proofs.Position.Key
import EventIndex.Proofs.Sql.Numeric
import EventIndex.Sql.Record

/-! # Columns read back

What a database keeps of the value of a parameter depends on the type of the column: a number comes
back as the same number, with whatever places, an amount as the text of its number, an instant in
whole microseconds, and everything else as it was. A value of each type is read back from that. -/

namespace EventIndex.Sql

/-- A column of the type gives the second value back for the first. -/
inductive ColumnType.Keeps : ColumnType → Value → Value → Prop
  | null (type : ColumnType) : Keeps type .null .null
  | text (s : String) : Keeps .text (.text s) (.text s)
  | numeric {n m : Numeric}
    (h : m.unscaled * Numeric.scale n.places = n.unscaled * Numeric.scale m.places) :
    Keeps .numeric (.numeric n) (.numeric m)
  | amount {s : String} {n : Numeric} (h : Numeric.ofText? s = some n) :
    Keeps .amount (.text s) (.text n.text)
  | bigint (n : Int) : Keeps .bigint (.bigint n) (.bigint n)
  | bytes (bs : List UInt8) : Keeps .bytes (.bytes bs) (.bytes bs)
  | boolean (b : Bool) : Keeps .boolean (.boolean b) (.boolean b)
  | json (j : Json) : Keeps .json (.json j) (.json j)
  | instant (t : Timestamp) : Keeps .instant (.instant t) (.instant t.toMicros)

theorem ColumnType.Keeps.null_iff {type : ColumnType} {v w : Value} (h : type.Keeps v w) :
    w = .null ↔ v = .null := by
  cases h <;> simp

/-- An amount comes back as the text that it was bound as. -/
theorem ColumnType.keeps_amount (a : Amount) :
    ColumnType.amount.Keeps (.amount a) (.amount a) := by
  have h := Keeps.amount (Numeric.ofText?_toString a.val)
  rw [Numeric.text_whole] at h
  exact h

namespace Row

variable {r : Row} {column : String}

theorem text_of_keeps {s : String} (h : ColumnType.text.Keeps (.text s) (r.get column)) :
    r.text column = .ok s := by
  generalize hv : r.get column = v at h
  cases h
  rw [text, read, hv]
  rfl

theorem json_of_keeps {j : Json} (h : ColumnType.json.Keeps (.json j) (r.get column)) :
    r.json column = .ok j := by
  generalize hv : r.get column = v at h
  cases h
  rw [json, read, hv]
  rfl

theorem boolean_of_keeps {b : Bool} (h : ColumnType.boolean.Keeps (.boolean b) (r.get column)) :
    r.boolean column = .ok b := by
  generalize hv : r.get column = v at h
  cases h
  rw [boolean, read, hv]
  rfl

theorem instant_of_keeps {t : Timestamp}
    (h : ColumnType.instant.Keeps (.instant t) (r.get column)) :
    r.instant column = .ok t.toMicros := by
  generalize hv : r.get column = v at h
  cases h
  rw [instant, read, hv]
  rfl

theorem position_of_keeps {p : Position} (h : ColumnType.bytes.Keeps (.position p) (r.get column)) :
    r.position column = .ok p := by
  generalize hv : r.get column = v at h
  cases h
  have hread : r.read Value.asBytes column = .ok p.key := by
    rw [read, hv]
    rfl
  rw [position, hread]
  change (Position.ofKey p.key).mapError _ = _
  rw [Position.ofKey_key]
  rfl

theorem word32_of_keeps {n : UInt32} (h : ColumnType.bigint.Keeps (.word32 n) (r.get column)) :
    r.word32 column = .ok n := by
  generalize hv : r.get column = v at h
  cases h
  have hread : r.read Value.asBigint column = .ok (Int.ofNat n.toNat) := by
    rw [read, hv]
    rfl
  rw [word32, hread]
  change (if n.toNat < UInt32.size then pure (UInt32.ofNat n.toNat) else _) = _
  rw [if_pos n.toNat_lt_size, UInt32.ofNat_toNat]
  rfl

theorem word64_of_keeps {n : UInt64} (h : ColumnType.numeric.Keeps (.word64 n) (r.get column)) :
    r.word64 column = .ok n := by
  generalize hv : r.get column = v at h
  cases h with
  | @numeric _ m hm =>
    obtain ⟨unscaled, places⟩ := m
    -- The number has the places that it came with, and zeros there.
    obtain rfl : unscaled = n.toNat * Numeric.scale places := by
      simpa [Numeric.ofNat, Numeric.scale_zero] using hm
    have hlimit : n.toNat < Numeric.magnitudeLimit := n.toNat_lt_size.trans (by decide)
    obtain ⟨m, hfit, hwhole⟩ := Numeric.fit?_withPlaces hlimit places
    have hread : r.read Value.asNumeric column = .ok m := by
      rw [read, hv]
      change Except.mapError _ ((Numeric.withPlaces n.toNat places).fit?.elim _ _) = _
      rw [hfit]
      rfl
    have hvalue : (if n.toNat < UInt64.size then pure (UInt64.ofNat n.toNat)
        else throw (.invalid column m.text) : Except RowError UInt64) = .ok n := by
      rw [if_pos n.toNat_lt_size, UInt64.ofNat_toNat]
      rfl
    rw [word64, hread]
    simp only [bind, Except.bind, hwhole]
    exact hvalue

theorem amount_of_keeps {a : Amount} (h : ColumnType.amount.Keeps (.amount a) (r.get column)) :
    r.amount column = .ok a := by
  generalize hv : r.get column = v at h
  cases h with
  | @amount _ n hn =>
    rw [Amount.text, Numeric.ofText?_toString] at hn
    obtain rfl := Option.some.inj hn
    have hread : r.read Value.asText column = .ok (toString a.val) := by
      rw [read, hv, Numeric.text_whole]
      rfl
    have hvalue : (Text.intOfSigned? (toString a.val).toList).bind Amount.ofInt? = some a := by
      rw [Text.intOfSigned?_toString]
      exact Amount.ofInt?_val a
    rw [amount, hread]
    simp only [bind, Except.bind, hvalue]
    rfl

theorem optional_of_keeps {α : Type} {type : ColumnType} {value : α → Value} {a : Option α}
    {read : Row → String → Except RowError α}
    (h : type.Keeps (.optional value a) (r.get column)) (hvalue : ∀ x, value x ≠ .null)
    (hread : ∀ x, type.Keeps (value x) (r.get column) → read r column = .ok x) :
    optional read r column = .ok a := by
  cases a with
  | none =>
    rw [optional, if_pos (h.null_iff.mpr rfl)]
    rfl
  | some x =>
    rw [optional, if_neg (mt h.null_iff.mp (hvalue x)), hread x h]
    rfl

end Row

end EventIndex.Sql
