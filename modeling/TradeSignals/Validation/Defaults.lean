import TradeSignals.Strategy.Basic

/-!
# Defaults

What a strategy gets where it says nothing, or nothing that can be used.
-/

namespace TradeSignals

/-- Values that stand in for those of a strategy. -/
structure Defaults where
  /-- What is traded. -/
  ticker : String
  /-- Which sides of the market are taken. -/
  positionType : PositionType
  /-- How much time a bar covers. -/
  interval : Interval
  /-- The first day. -/
  startDate : Date
  /-- The last day. -/
  endDate : Date
  /-- How many dollars there are in the beginning. -/
  initialCapital : Float
  /-- How much to trade. -/
  orderSize : OrderSize

namespace Defaults

/-- The defaults that hold when nothing is configured. -/
def standard : Defaults where
  ticker := "AAPL"
  positionType := .long
  interval := .oneDay
  startDate := (Date.of? 2019 1 1).get (by decide)
  endDate := (Date.of? 2024 1 1).get (by decide)
  initialCapital := 10000
  orderSize := .contracts 1

/-- A default date, unless it lies in the future. -/
def usable? (today d : Date) : Option Date :=
  if d ≤ today then some d else none

end Defaults

end TradeSignals
