import EventIndex.Time.Date

/-!
# Instants

An instant of coordinated universal time, to the nanosecond. A leap second is the last second of
its minute with a thousand million nanoseconds more.
-/

namespace EventIndex

open Time

structure Timestamp where
  date : Date
  /-- Seconds since the start of the day. -/
  second : Nat
  nanos : Nat
  second_lt : second < 86400
  nanos_lt : nanos < 2000000000
  leap : 1000000000 ≤ nanos → second % 60 = 59
deriving DecidableEq

namespace Timestamp

def ofFields? (date : Date) (second nanos : Nat) : Option Timestamp :=
  if h : second < 86400 ∧ nanos < 2000000000 ∧ (1000000000 ≤ nanos → second % 60 = 59) then
    some ⟨date, second, nanos, h.1, h.2.1, h.2.2⟩
  else none

/-- The instant that a clock running `offset` seconds ahead shows as this date and time. -/
def ofLocal? (date : Date) (second nanos : Nat) (offset : Int) : Option Timestamp :=
  let shifted := (second : Int) - offset
  if shifted < 0 then
    date.previous?.bind (ofFields? · (shifted + 86400).toNat nanos)
  else if 86400 ≤ shifted then
    date.next?.bind (ofFields? · (shifted - 86400).toNat nanos)
  else ofFields? date shifted.toNat nanos

/-- The instant so many seconds and nanoseconds after the start of 1970. -/
def ofUnix? (seconds : Int) (nanos : Nat) : Option Timestamp :=
  (Date.ofDayNumber? (seconds / 86400 + 719163)).bind
    (ofFields? · (seconds % 86400).toNat nanos)

/-- The first instant of 1970. -/
def epoch : Timestamp where
  date := ⟨1970, 1, 1, by decide, by decide, by decide, by decide⟩
  second := 0
  nanos := 0
  second_lt := by decide
  nanos_lt := by decide
  leap := by decide

/-- The start of 2000. -/
def millennium : Timestamp where
  date := ⟨2000, 1, 1, by decide, by decide, by decide, by decide⟩
  second := 0
  nanos := 0
  second_lt := by decide
  nanos_lt := by decide
  leap := by decide

/-- The nanoseconds that a clock without leap seconds counts up to the instant, from the last day of
the year 0 on. A leap second is the first second of the next minute to it. -/
def elapsed (t : Timestamp) : Int :=
  (t.date.dayNumber * 86400 + t.second) * 1000000000 + t.nanos

/-- The instant in whole microseconds, as a clock without leap seconds shows it. What is cut off is
cut towards the start of 2000. -/
def toMicros (t : Timestamp) : Timestamp :=
  let up := if t.elapsed < millennium.elapsed ∧ t.nanos % 1000 ≠ 0 then 1 else 0
  let micros := t.nanos / 1000 + up
  let second := t.second + micros / 1000000
  let nanos := micros % 1000000 * 1000
  if h : second < 86400 then ⟨t.date, second, nanos, h, by omega, by omega⟩
  else
    match t.date.next? with
    | some date => ⟨date, second % 86400, nanos, by omega, by omega, by omega⟩
    | none => t

/-- The nanoseconds from one instant to a later one. -/
def nanosUntil (start stop : Timestamp) : Nat :=
  (stop.elapsed - start.elapsed).toNat

theorem ofFields?_fields (t : Timestamp) : ofFields? t.date t.second t.nanos = some t :=
  dif_pos ⟨t.second_lt, t.nanos_lt, t.leap⟩

theorem ofLocal?_zero (t : Timestamp) : ofLocal? t.date t.second t.nanos 0 = some t := by
  have h : ¬ (86400 : Int) ≤ t.second := by have := t.second_lt; omega
  have h' : ¬ (t.second : Int) < 0 := by omega
  simp [ofLocal?, h, h', ofFields?_fields]

end Timestamp

end EventIndex
