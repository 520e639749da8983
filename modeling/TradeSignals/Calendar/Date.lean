/-!
# Dates

Days of the Gregorian calendar, extended backwards before its introduction, with
years from -262143 to 262142. A date carries the proof that it exists, so the
thirtieth of February cannot be written down; dates are ordered by year, then month,
then day.
-/

namespace TradeSignals

namespace Date

/-- A year of 366 days. -/
def isLeap (year : Int) : Bool :=
  year % 4 == 0 && (year % 100 != 0 || year % 400 == 0)

/-- How many days a month has; zero for a number that is no month. -/
def daysIn (year : Int) (month : Nat) : Nat :=
  if month ∈ [1, 3, 5, 7, 8, 10, 12] then 31
  else if month ∈ [4, 6, 9, 11] then 30
  else if month = 2 then if isLeap year then 29 else 28
  else 0

/-- Does the calendar have this day? -/
def exists? (year : Int) (month day : Nat) : Bool :=
  decide (-262143 ≤ year) && decide (year ≤ 262142) && decide (1 ≤ day) &&
    decide (day ≤ daysIn year month)

end Date

/-- A day of the calendar. -/
structure Date where
  /-- The year; the year before year one is year zero. -/
  year : Int
  /-- The month, from one to twelve. -/
  month : Nat
  /-- The day of the month, from one. -/
  day : Nat
  /-- The calendar has this day. -/
  valid : Date.exists? year month day = true
deriving DecidableEq

namespace Date

/-- The date of a year, month and day, if there is one. -/
def of? (year : Int) (month day : Nat) : Option Date :=
  if h : exists? year month day = true then some ⟨year, month, day, h⟩ else none

/-- No month has more than thirty-one days, and there are twelve months. -/
theorem daysIn_le (year : Int) (month : Nat) : daysIn year month ≤ 31 := by
  unfold daysIn
  repeat' split
  all_goals omega

/-- Only the numbers from one to twelve are months. -/
theorem month_of_daysIn_pos {year : Int} {month : Nat} (h : 0 < daysIn year month) :
    1 ≤ month ∧ month ≤ 12 := by
  unfold daysIn at h
  split at h
  · next hm => simp at hm; omega
  · split at h
    · next hm => simp at hm; omega
    · split at h
      · omega
      · simp at h

/-- The day of a date is between one and thirty-one. -/
theorem day_bounds (d : Date) : 1 ≤ d.day ∧ d.day ≤ 31 := by
  have h := d.valid
  simp only [exists?, Bool.and_eq_true, decide_eq_true_eq] at h
  exact ⟨h.1.2, Nat.le_trans h.2 (daysIn_le _ _)⟩

/-- The month of a date is between one and twelve. -/
theorem month_bounds (d : Date) : 1 ≤ d.month ∧ d.month ≤ 12 := by
  have h := d.valid
  simp only [exists?, Bool.and_eq_true, decide_eq_true_eq] at h
  exact @month_of_daysIn_pos d.year d.month (by omega)

/-! ### The order of dates -/

/-- A number that grows from day to day: the calendar with months of thirty-two days
and years of sixteen months. -/
def rank (d : Date) : Int :=
  (d.year * 16 + d.month) * 32 + d.day

instance : LT Date := ⟨fun a b => a.rank < b.rank⟩

instance : LE Date := ⟨fun a b => a.rank ≤ b.rank⟩

instance (a b : Date) : Decidable (a < b) := inferInstanceAs (Decidable (a.rank < b.rank))

instance (a b : Date) : Decidable (a ≤ b) := inferInstanceAs (Decidable (a.rank ≤ b.rank))

/-- The rank tells dates apart. -/
theorem eq_of_rank_eq {a b : Date} (h : a.rank = b.rank) : a = b := by
  have ha := a.day_bounds
  have hb := b.day_bounds
  have ha' := a.month_bounds
  have hb' := b.month_bounds
  obtain ⟨ya, ma, da, va⟩ := a
  obtain ⟨yb, mb, db, vb⟩ := b
  simp only [rank] at h ha hb ha' hb'
  obtain rfl : da = db := by omega
  obtain rfl : ma = mb := by omega
  obtain rfl : ya = yb := by omega
  rfl

/-- Of two dates one is earlier or they are the same. -/
theorem lt_trichotomy (a b : Date) : a < b ∨ a = b ∨ b < a := by
  rcases Int.lt_trichotomy a.rank b.rank with h | h | h
  · exact .inl h
  · exact .inr (.inl (eq_of_rank_eq h))
  · exact .inr (.inr h)

theorem le_trans {a b c : Date} (hab : a ≤ b) (hbc : b ≤ c) : a ≤ c :=
  Int.le_trans hab hbc

theorem le_total (a b : Date) : a ≤ b ∨ b ≤ a :=
  Int.le_total a.rank b.rank

theorem le_antisymm {a b : Date} (hab : a ≤ b) (hba : b ≤ a) : a = b :=
  eq_of_rank_eq (Int.le_antisymm hab hba)

theorem not_lt {a b : Date} : ¬a < b ↔ b ≤ a := Int.not_lt

theorem not_le {a b : Date} : ¬a ≤ b ↔ b < a := Int.not_le

theorem le_of_lt {a b : Date} (h : a < b) : a ≤ b := Int.le_of_lt h

/-- Is the first date earlier than the second, or the same? -/
def notAfter (a b : Date) : Bool := decide (a ≤ b)

/-! ### The day after -/

/-- The day after a date; the calendar's last day has none. -/
def next? (d : Date) : Option Date :=
  match of? d.year d.month (d.day + 1) with
  | some tomorrow => some tomorrow
  | none =>
    match of? d.year (d.month + 1) 1 with
    | some firstOfMonth => some firstOfMonth
    | none => of? (d.year + 1) 1 1

/-- A date and the days that follow it, as many as asked for or as there are. -/
def run (count : Nat) (start : Date) : List Date :=
  match count with
  | 0 => []
  | n + 1 =>
    start :: match start.next? with
      | some tomorrow => run n tomorrow
      | none => []

example : of? 2023 2 29 = none := by decide
example : (of? 2024 2 29).isSome = true := by decide
example : ((of? 2023 12 31).bind next?).map (fun d => (d.year, d.month, d.day))
    = some (2024, 1, 1) := by decide

end Date

end TradeSignals
