/-!
# Enumerations of the strategy language

Six small sets that strategy text chooses from. A member is written as the name of
its set, a point and its own name, as in `Interval.ONE_DAY`; here each set is a type,
and its members are listed once, in the order in which they are shown.
-/

namespace TradeSignals

/-- A type whose members have names in strategy text. -/
class Choice (α : Type) where
  /-- All members, in the order in which they are shown. -/
  all : List α
  /-- The name of a member. -/
  label : α → String

/-- The member with a name. -/
def Choice.ofLabel? {α : Type} [Choice α] (name : String) : Option α :=
  (Choice.all : List α).find? fun a => Choice.label a == name

/-- The names of all members. -/
def Choice.labels (α : Type) [Choice α] : List String :=
  (Choice.all : List α).map Choice.label

/-- What has a name is found by it, as long as no two members share one. -/
theorem Choice.label_of_ofLabel? {α : Type} [Choice α] {name : String} {a : α}
    (h : Choice.ofLabel? name = some a) : Choice.label a = name := by
  simpa using List.find?_some h

/-! ### Positions -/

/-- Which sides of the market a strategy may take. -/
inductive PositionType where
  /-- It buys first and sells later. -/
  | long
  /-- It sells first and buys back later. -/
  | short
  /-- It does both, never at once. -/
  | longShort
deriving DecidableEq

instance : Choice PositionType where
  all := [.long, .short, .longShort]
  label
    | .long => "LONG"
    | .short => "SHORT"
    | .longShort => "LONG_SHORT"

/-! ### Times -/

/-- How much time one bar covers. -/
inductive Interval where
  /-- One minute. -/
  | oneMinute
  /-- Five minutes. -/
  | fiveMinutes
  /-- Fifteen minutes. -/
  | fifteenMinutes
  /-- Thirty minutes. -/
  | thirtyMinutes
  /-- One hour. -/
  | oneHour
  /-- One day. -/
  | oneDay
  /-- One week. -/
  | oneWeek
  /-- One month. -/
  | oneMonth
deriving DecidableEq

instance : Choice Interval where
  all := [.oneMinute, .fiveMinutes, .fifteenMinutes, .thirtyMinutes, .oneHour, .oneDay,
    .oneWeek, .oneMonth]
  label
    | .oneMinute => "ONE_MINUTE"
    | .fiveMinutes => "FIVE_MINUTES"
    | .fifteenMinutes => "FIFTEEN_MINUTES"
    | .thirtyMinutes => "THIRTY_MINUTES"
    | .oneHour => "ONE_HOUR"
    | .oneDay => "ONE_DAY"
    | .oneWeek => "ONE_WEEK"
    | .oneMonth => "ONE_MONTH"

/-- How far back a strategy looks when it gives no dates. -/
inductive Period where
  /-- One month. -/
  | oneMonth
  /-- Three months. -/
  | threeMonths
  /-- Six months. -/
  | sixMonths
  /-- One year. -/
  | oneYear
  /-- Two years. -/
  | twoYears
  /-- Five years. -/
  | fiveYears
  /-- Ten years. -/
  | tenYears
  /-- As far as there are bars. -/
  | max
deriving DecidableEq

instance : Choice Period where
  all := [.oneMonth, .threeMonths, .sixMonths, .oneYear, .twoYears, .fiveYears, .tenYears,
    .max]
  label
    | .oneMonth => "ONE_MONTH"
    | .threeMonths => "THREE_MONTHS"
    | .sixMonths => "SIX_MONTHS"
    | .oneYear => "ONE_YEAR"
    | .twoYears => "TWO_YEARS"
    | .fiveYears => "FIVE_YEARS"
    | .tenYears => "TEN_YEARS"
    | .max => "MAX"

/-! ### Bars, exits and retracements -/

/-- A number of a bar. -/
inductive PriceField where
  /-- The first price. -/
  | opening
  /-- The highest price. -/
  | high
  /-- The lowest price. -/
  | low
  /-- The last price. -/
  | close
  /-- How much was traded. -/
  | volume
deriving DecidableEq

instance : Choice PriceField where
  all := [.opening, .high, .low, .close, .volume]
  label
    | .opening => "OPEN"
    | .high => "HIGH"
    | .low => "LOW"
    | .close => "CLOSE"
    | .volume => "VOLUME"

/-- What a stop loss measures a loss from. -/
inductive StopKind where
  /-- From the price at which the position was entered. -/
  | normal
  /-- From the best price since then. -/
  | trailing
deriving DecidableEq

instance : Choice StopKind where
  all := [.normal, .trailing]
  label
    | .normal => "NORMAL"
    | .trailing => "TRAILING"

/-- How far a price has come back from its high towards its low. -/
inductive Retracement where
  /-- Not at all. -/
  | none
  /-- By 23.6 percent. -/
  | quarter
  /-- By 38.2 percent. -/
  | third
  /-- By half. -/
  | half
  /-- By 61.8 percent. -/
  | golden
  /-- By 78.6 percent. -/
  | fourFifths
  /-- All the way. -/
  | full
deriving DecidableEq

instance : Choice Retracement where
  all := [.none, .quarter, .third, .half, .golden, .fourFifths, .full]
  label
    | .none => "LEVEL_0"
    | .quarter => "LEVEL_23_6"
    | .third => "LEVEL_38_2"
    | .half => "LEVEL_50"
    | .golden => "LEVEL_61_8"
    | .fourFifths => "LEVEL_78_6"
    | .full => "LEVEL_100"

namespace Retracement

/-- The name of the set in strategy text. -/
def kindName : String := "FibonacciLevels"

/-- The part of the way that a level stands for, in thousandths. -/
def thousandths : Retracement → Nat
  | .none => 0
  | .quarter => 236
  | .third => 382
  | .half => 500
  | .golden => 618
  | .fourFifths => 786
  | .full => 1000

/-- The part of the way as a double. -/
def ratio : Retracement → Float
  | .none => 0.0
  | .quarter => 0.236
  | .third => 0.382
  | .half => 0.5
  | .golden => 0.618
  | .fourFifths => 0.786
  | .full => 1.0

/-- The level whose ratio lies within a billionth of a number. -/
def ofRatio? (x : Float) : Option Retracement :=
  (Choice.all : List Retracement).find? fun level => (level.ratio - x).abs < 1e-9

end Retracement

end TradeSignals
