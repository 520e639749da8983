import TradeSignals.Market.Bar

/-!
# Indicators

What is computed from the numbers of a run of bars, one number for each bar. An
indicator over a window has no number before the first whole window has passed, and none
at all for a window of length zero or one that is longer than the run: the gap is filled
with missing numbers, so there are always as many numbers as there are bars.

Windows slide in two ways. Some indicators look at each window afresh; others are
recurrences, which take a first number from the first window and then go on from bar to
bar.
-/

namespace TradeSignals.Indicator

open Quantity

variable {α : Type} [Quantity α]

/-! ### Windows and recurrences -/

/-- The windows of a length, from the first to the last one. -/
def windows {β : Type} (length : Nat) (xs : List β) : List (List β) :=
  (List.range (xs.length + 1 - length)).map fun i => (xs.drop i).take length

/-- An indicator that looks at each window afresh. -/
def overWindows {β : Type} (length : Nat) (value : List β → α) (xs : List β) : List α :=
  if length = 0 ∨ xs.length < length then gaps xs.length
  else gaps (length - 1) ++ (windows length xs).map value

/-- A first number and those that follow from it step by step. -/
def recurrence {β : Type} (step : α → β → α) (first : α) : List β → List α
  | [] => [first]
  | x :: rest => first :: recurrence step (step first x) rest

/-- The mean of numbers. -/
def mean (xs : List α) : α := sum xs / ofNat xs.length

/-! ### Averages -/

/-- The sum over a sliding window, and how many numbers in it are missing. -/
structure Rolling (α : Type) where
  /-- The sum of the numbers that are not missing. -/
  total : α
  /-- How many numbers are missing. -/
  missing : Nat

namespace Rolling

/-- A number enters the window. -/
def enter (w : Rolling α) (x : α) : Rolling α :=
  if isMissing x then { w with missing := w.missing + 1 } else { w with total := w.total + x }

/-- A number leaves the window. -/
def leave (w : Rolling α) (x : α) : Rolling α :=
  if isMissing x then { w with missing := w.missing - 1 } else { w with total := w.total - x }

/-- The mean over a window of a length, if nothing in it is missing. -/
def mean (length : Nat) (w : Rolling α) : α :=
  if w.missing = 0 then w.total / ofNat length else Quantity.missing

end Rolling

/-- The windows over `entering` once each number has come in and the oldest one, in
`leaving`, has gone out. -/
def slide (w : Rolling α) : (entering leaving : List α) → List (Rolling α)
  | x :: entering, old :: leaving =>
    let w := (w.enter x).leave old
    w :: slide w entering leaving
  | _, _ => []

/-- **The simple moving average:** the mean of a window, from a running sum. Missing
numbers are left out of the sum and counted, and a window with one of them has no
mean. -/
def sma (length : Nat) (xs : List α) : List α :=
  if length = 0 ∨ xs.length < length then gaps xs.length
  else
    let first := (xs.take length).foldl Rolling.enter ⟨ofInt 0, 0⟩
    gaps (length - 1) ++ (first :: slide first (xs.drop length) xs).map (Rolling.mean length)

/-- How many numbers are missing before the first that is not. -/
def leadingGaps (xs : List α) : Nat := (xs.takeWhile isMissing).length

/-- The share of a new number in an exponential average. -/
def emaWeight (length : Nat) : α := ofInt 2 / (ofNat length + ofInt 1)

/-- **The exponential moving average:** it begins with the mean of the first window
without the gap in front, and then moves towards each new number by a fixed share. -/
def ema (length : Nat) (xs : List α) : List α :=
  let start := leadingGaps xs
  if length = 0 ∨ xs.length < start + length then gaps xs.length
  else
    let weight : α := emaWeight length
    let rest := xs.drop start
    let first := sum (rest.take length) / ofNat length
    gaps (start + length - 1) ++
      recurrence (fun average x => x * weight + average * (ofInt 1 - weight)) first
        (rest.drop length)

/-- The numbers of a window with their weights: one, two, three and so on. -/
def weighted (window : List α) : List α :=
  window.mapIdx fun i x => ofNat (i + 1) * x

/-- **The weighted moving average:** later numbers of a window weigh more. -/
def wma (length : Nat) (xs : List α) : List α :=
  let n : α := ofNat length
  overWindows length
    (fun window => sum (weighted window) / (n * (n + ofInt 1) / ofInt 2)) xs

/-! ### Change -/

/-- Each number with the one before it. -/
def changes (xs : List α) : List α := List.zipWith (fun x old => x - old) xs.tail xs

/-- What was gained by a change. -/
def gain (change : α) : α := if lt (ofInt 0) change then change else ofInt 0

/-- What was lost by a change. -/
def loss (change : α) : α := if lt change (ofInt 0) then -change else ofInt 0

/-- An average that begins with the mean of the first window and then takes each new
number in with the weight of one place in a window. -/
def smoothed (length : Nat) (xs : List α) : List α :=
  recurrence (fun average x => (average * ofNat (length - 1) + x) / ofNat length)
    (sum (xs.take length) / ofNat length) (xs.drop length)

/-- The strength of gains relative to losses, from zero to a hundred. -/
def strength (averageGain averageLoss : α) : α :=
  if isZero averageLoss then ofInt 100
  else ofInt 100 - ofInt 100 / (ofInt 1 + averageGain / averageLoss)

/-- **The relative strength index** of smoothed gains and losses. -/
def rsi (length : Nat) (xs : List α) : List α :=
  if length = 0 ∨ xs.length ≤ length then gaps xs.length
  else
    let steps := changes xs
    gaps length ++
      List.zipWith strength (smoothed length (steps.map gain)) (smoothed length (steps.map loss))

/-- The change from an old number to a new one, in percent. -/
def percentChange (x old : α) : α :=
  if isZero old then ofInt 0 else (x - old) / old * ofInt 100

/-- **The rate of change** over a window, in percent. -/
def roc (length : Nat) (xs : List α) : List α :=
  if length = 0 ∨ xs.length ≤ length then gaps xs.length
  else gaps length ++ List.zipWith percentChange (xs.drop length) xs

/-! ### Spread -/

/-- The standard deviation of all the numbers of a window. -/
def deviation (window : List α) : α :=
  let middle := mean window
  let squares := window.map fun x => (x - middle) * (x - middle)
  sqrt (sum squares / ofNat window.length)

/-- **The standard deviation** of a window. -/
def stddev (length : Nat) (xs : List α) : List α := overWindows length deviation xs

/-- The line in the middle of two bands. -/
def middleBand (length : Nat) (xs : List α) : List α := overWindows length mean xs

/-- The line so many standard deviations above the mean of a window. -/
def upperBand (length : Nat) (deviations : α) (xs : List α) : List α :=
  overWindows length (fun window => mean window + deviations * deviation window) xs

/-- The line so many standard deviations below the mean of a window. -/
def lowerBand (length : Nat) (deviations : α) (xs : List α) : List α :=
  overWindows length (fun window => mean window - deviations * deviation window) xs

/-! ### The distance of two averages -/

/-- **The distance** from a slow exponential average to a fast one. -/
def macdLine (fast slow : Nat) (xs : List α) : List α :=
  List.zipWith (· - ·) (ema fast xs) (ema slow xs)

/-- The exponential average of the distance. -/
def macdSignal (fast slow signal : Nat) (xs : List α) : List α :=
  ema signal (macdLine fast slow xs)

/-- The distance from its own average to the distance. -/
def macdHistogram (fast slow signal : Nat) (xs : List α) : List α :=
  List.zipWith (· - ·) (macdLine fast slow xs) (macdSignal fast slow signal xs)

/-! ### Studies of whole bars -/

/-- The ranges of bars, each stretched to the close before it. -/
def trueRanges : List (Bar α) → List α
  | [] => []
  | first :: rest =>
    (first.high - first.low) ::
      List.zipWith (fun bar old => bar.trueRange old.close) rest (first :: rest)

/-- **The average true range**, smoothed. -/
def atr (length : Nat) (bars : List (Bar α)) : List α :=
  if length = 0 ∨ bars.length < length then gaps bars.length
  else gaps (length - 1) ++ smoothed length (trueRanges bars)

/-- The volume of a bar counted towards the direction of the close. -/
def addVolume (total : α) (step : Bar α × Bar α) : α :=
  let (bar, old) := step
  if lt old.close bar.close then total + bar.volumeQuantity
  else if lt bar.close old.close then total - bar.volumeQuantity
  else total

/-- **The on-balance volume:** the volume of rising bars less that of falling ones. -/
def obv : List (Bar α) → List α
  | [] => []
  | first :: rest => recurrence addVolume first.volumeQuantity (rest.zip (first :: rest))

/-- A level as a part of one. -/
def ratio (level : Retracement) : α := ofNat level.thousandths / ofInt 1000

/-- The price at a level between the high and the low of a window. -/
def levelPrice (level : Retracement) (window : List (Bar α)) : α :=
  let high := (window.map (·.high)).foldl Quantity.max bottom
  let low := (window.map (·.low)).foldl Quantity.min top
  high - (high - low) * ratio level

/-- **The retracement** to a level within a window. -/
def retracement (level : Retracement) (length : Nat) (bars : List (Bar α)) : List α :=
  overWindows length (levelPrice level) bars

end TradeSignals.Indicator
