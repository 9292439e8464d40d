/-!
# Calendar dates

Dates of the Gregorian calendar, extended to all years from -262143 to 262142, and the day before
and after each.
-/

namespace EventIndex.Time

def isLeapYear (year : Int) : Bool :=
  year % 4 = 0 && (year % 100 ≠ 0 || year % 400 = 0)

def daysIn (year : Int) (month : Nat) : Nat :=
  match month with
  | 2 => if isLeapYear year then 29 else 28
  | 4 | 6 | 9 | 11 => 30
  | _ => 31

/-- A day that the calendar has, in a year within its range. -/
structure Date where
  year : Int
  month : Nat
  day : Nat
  min_year : -262143 ≤ year
  max_year : year ≤ 262142
  month_mem : 1 ≤ month ∧ month ≤ 12
  day_mem : 1 ≤ day ∧ day ≤ daysIn year month
deriving DecidableEq

namespace Date

def ofFields? (year : Int) (month day : Nat) : Option Date :=
  if h : (-262143 ≤ year ∧ year ≤ 262142) ∧ (1 ≤ month ∧ month ≤ 12) ∧
      1 ≤ day ∧ day ≤ daysIn year month then
    some ⟨year, month, day, h.1.1, h.1.2, h.2.1, h.2.2⟩
  else none

theorem ofFields?_fields (d : Date) : ofFields? d.year d.month d.day = some d :=
  dif_pos ⟨⟨d.min_year, d.max_year⟩, d.month_mem, d.day_mem⟩

/-- The next day, unless the calendar ends. -/
def next? (d : Date) : Option Date :=
  if d.day < daysIn d.year d.month then ofFields? d.year d.month (d.day + 1)
  else if d.month < 12 then ofFields? d.year (d.month + 1) 1
  else ofFields? (d.year + 1) 1 1

/-- The day before, unless the calendar begins. -/
def previous? (d : Date) : Option Date :=
  if 1 < d.day then ofFields? d.year d.month (d.day - 1)
  else if 1 < d.month then ofFields? d.year (d.month - 1) (daysIn d.year (d.month - 1))
  else ofFields? (d.year - 1) 12 31

/-- The days of the years from 1 on that come before a year. -/
def daysBefore (year : Int) : Int :=
  let y := year - 1
  365 * y + y / 4 - y / 100 + y / 400

/-- The days of the months before a month. -/
def daysBeforeMonth (year : Int) (month : Nat) : Nat :=
  (List.range' 1 (month - 1)).foldl (fun days month => days + daysIn year month) 0

/-- The days from the last day of the year 0 on. -/
def dayNumber (d : Date) : Int :=
  daysBefore d.year + daysBeforeMonth d.year d.month + d.day

/-- The month and the day in it, for a day of the year that is counted from the first of the months
on. -/
def monthAndDay? (year : Int) (day : Nat) : (months : List Nat) → Option (Nat × Nat)
  | [] => none
  | month :: months =>
    if day ≤ daysIn year month then some (month, day)
    else monthAndDay? year (day - daysIn year month) months

/-- The date with a day number. Years last 146097 days in 400 on average. -/
def ofDayNumber? (n : Int) : Option Date := do
  let guess := n * 400 / 146097
  let year ← [guess + 2, guess + 1, guess].find? fun y => daysBefore y < n
  let (month, day) ← monthAndDay? year (n - daysBefore year).toNat (List.range' 1 12)
  ofFields? year month day

end Date

end EventIndex.Time
