import Mathlib.Algebra.Group.Nat.Defs
import Mathlib.Data.Nat.Notation
import Mathlib.Tactic.Common
import TradeSignals.Strategy.Basic
import TradeSignals.Validation.Defaults
import TradeSignals.Validation.Ticker

/-!
# Strategies in range

The type of strategies has room for values that no text can give: lengths of zero bars,
infinite amounts, junctions of no conditions, tickers that are no tickers. A strategy is
*in range* (`TradeSignals.Strategy.InRange`) if it has none of them anywhere. Being in
range is said part by part, so that it can be proved part by part: of lengths and amounts,
of series, of conditions by recursion, and of the settings of a strategy.

Dates are in range with respect to a day that they may not come after.
-/

namespace TradeSignals

/-! ### Numbers -/

/-- A length that fits into a signed integer, and is not zero. -/
def LengthInRange (n : UInt64) : Prop :=
  1 ≤ n.toNat ∧ n.toNat < 2 ^ 63

/-- A length in range is written as the number that it is. -/
theorem LengthInRange.toInt {n : UInt64} (h : LengthInRange n) : n.toInt64.toInt = n.toNat :=
  BitVec.toInt_eq_toNat_of_lt (show 2 * n.toNat < 2 ^ 64 by have := h.2; omega)

/-- A finite amount above zero. -/
def IsPositive (x : Float) : Prop :=
  x.isFinite = true ∧ 0 < x

/-- A part of a whole, in percent. -/
def IsPercentage (x : Float) : Prop :=
  x.isFinite = true ∧ 0 < x ∧ x ≤ 100

/-- A finite amount that is not below zero. -/
def IsCost (x : Float) : Prop :=
  x.isFinite = true ∧ 0 ≤ x

/-! ### Series and conditions -/

/-- **A series in range**: a ticker that is one, lengths of at least one bar, and finitely
many standard deviations above zero. -/
def Series.InRange : Series → Prop
  | .constant _ => True
  | .price ticker _ | .obv ticker => Ticker.isValid ticker = true
  | .windowed _ ticker length | .retracement ticker _ length =>
    Ticker.isValid ticker = true ∧ LengthInRange length
  | .macd ticker fast slow =>
    Ticker.isValid ticker = true ∧ LengthInRange fast ∧ LengthInRange slow
  | .macdSignal ticker fast slow signal =>
    Ticker.isValid ticker = true ∧ LengthInRange fast ∧ LengthInRange slow ∧ LengthInRange signal
  | .band _ ticker length deviations =>
    Ticker.isValid ticker = true ∧ LengthInRange length ∧ IsPositive deviations

namespace Condition

mutual

/-- **A condition in range**: its series and numbers are, and no junction is empty. -/
def InRange : Condition → Prop
  | .comparison _ first second => first.InRange ∧ second.InRange
  | .all conditions | .any conditions => conditions ≠ [] ∧ AllInRange conditions
  | .after base days => base.InRange ∧ LengthInRange days
  | .changeOver s percent days =>
    s.InRange ∧ percent.isFinite = true ∧ LengthInRange days
  | .change s percent => s.InRange ∧ percent.isFinite = true
  | .trend _ s days => s.InRange ∧ LengthInRange days

/-- Several conditions in range. -/
def AllInRange : List Condition → Prop
  | [] => True
  | c :: rest => c.InRange ∧ AllInRange rest

end

theorem allInRange_iff {cs : List Condition} : AllInRange cs ↔ ∀ c ∈ cs, c.InRange := by
  induction cs with
  | nil => simp [AllInRange]
  | cons c rest ih => rw [AllInRange, ih, List.forall_mem_cons]

/-- **In a condition in range, all series are in range**, however deep they are. -/
theorem InRange.of_mem_series {c : Condition} (h : c.InRange) : ∀ s ∈ c.series, s.InRange := by
  have hjunction : ∀ cs : List Condition, (∀ c ∈ cs, c.InRange → ∀ s ∈ c.series, s.InRange) →
      AllInRange cs → ∀ s ∈ seriesOfAll cs, s.InRange := by
    intro cs ih hcs s hs
    rw [seriesOfAll_eq, List.mem_flatMap] at hs
    obtain ⟨c, hc, hs⟩ := hs
    exact ih c hc (allInRange_iff.1 hcs c hc) s hs
  induction c using Condition.induct with
  | comparison r first second => exact List.forall_mem_cons.2 ⟨h.1, List.forall_mem_singleton.2 h.2⟩
  | all cs ih | any cs ih => exact hjunction cs ih h.2
  | after base days ih => exact ih h.1
  | changeOver s percent days | change s percent | trend r s days =>
    exact List.forall_mem_singleton.2 h.1

end Condition

/-- The ticker of a series in range is one. -/
theorem Series.InRange.isValid_of_ticker? {s : Series} (h : s.InRange) {ticker : String}
    (hticker : s.ticker? = some ticker) : Ticker.isValid ticker = true := by
  cases s with
  | constant value => cases hticker
  | price t field | obv t =>
    cases hticker
    exact h
  | windowed study t length | retracement t level length | macd t fast slow
  | macdSignal t fast slow signal | band side t length deviations =>
    cases hticker
    exact h.1

/-! ### Settings -/

/-- An order size in range. -/
def OrderSize.InRange : OrderSize → Prop
  | .contracts count => 1 ≤ count
  | .usd amount => IsPositive amount
  | .percentOfPortfolio percent => IsPercentage percent

/-- A commission in range. -/
def Commission.InRange : Commission → Prop
  | .fixed amount => IsCost amount
  | .percent rate => IsCost rate

/-- A stop loss in range. -/
def StopLoss.InRange (stop : StopLoss Float) : Prop :=
  IsPercentage stop.percent

/-- A take profit in range. -/
def TakeProfit.InRange (profit : TakeProfit Float) : Prop :=
  IsPositive profit.percent

/-! ### Strategies -/

/-- **A strategy in range** on the day `today`. -/
structure Strategy.InRange (s : Strategy) (today : Date) : Prop where
  /-- The ticker is one. -/
  ticker : Ticker.isValid s.ticker = true
  /-- The condition to buy is in range. -/
  buyCondition : s.buyCondition.InRange
  /-- The condition to sell is in range. -/
  sellCondition : s.sellCondition.InRange
  /-- The first day does not come after today. -/
  startDate : ∀ d, s.startDate = some d → d ≤ today
  /-- The last day does not come after today. -/
  endDate : ∀ d, s.endDate = some d → d ≤ today
  /-- The first day comes before the last day. -/
  dates : ∀ d e, s.startDate = some d → s.endDate = some e → d < e
  /-- The stop loss is in range. -/
  stopLoss : ∀ x, s.stopLoss = some x → x.InRange
  /-- The take profit is in range. -/
  takeProfit : ∀ x, s.takeProfit = some x → x.InRange
  /-- There is money in the beginning. -/
  initialCapital : IsPositive s.initialCapital
  /-- The order size is in range. -/
  orderSize : s.orderSize.InRange
  /-- The commission is in range. -/
  tradeCommissions : ∀ x, s.tradeCommissions = some x → x.InRange

/-- What is in range today is in range tomorrow. -/
theorem Strategy.InRange.mono {s : Strategy} {today later : Date} (h : s.InRange today)
    (hle : today ≤ later) : s.InRange later :=
  { h with
    startDate := fun d hd => Date.le_trans (h.startDate d hd) hle
    endDate := fun d hd => Date.le_trans (h.endDate d hd) hle }

/-- **Defaults in range**: those that can take the place of something. The default dates
are left out, since they are looked at again before they are used. -/
structure Defaults.InRange (d : Defaults) : Prop where
  /-- The ticker is one. -/
  ticker : Ticker.isValid d.ticker = true
  /-- There is money in the beginning. -/
  initialCapital : IsPositive d.initialCapital
  /-- The order size is in range. -/
  orderSize : d.orderSize.InRange

end TradeSignals
