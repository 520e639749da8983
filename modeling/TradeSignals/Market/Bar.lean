import TradeSignals.Calendar.Date
import TradeSignals.Market.Quantity
import TradeSignals.Vocabulary.Choice

/-!
# Bars

What happened to the price of a security in a stretch of time: where it began and
ended, how far it went up and down, and how much was traded.
-/

namespace TradeSignals

/-- The prices of one stretch of time. -/
structure Bar (α : Type) where
  /-- The day. -/
  date : Date
  /-- The first price. -/
  opening : α
  /-- The highest price. -/
  high : α
  /-- The lowest price. -/
  low : α
  /-- The last price. -/
  close : α
  /-- How much was traded. -/
  volume : Int64
deriving DecidableEq

namespace Bar

variable {α : Type} [Quantity α]

/-- How much was traded, as a quantity. -/
def volumeQuantity (bar : Bar α) : α := Quantity.ofInt bar.volume.toInt

/-- A number of a bar. -/
def field (bar : Bar α) : PriceField → α
  | .opening => bar.opening
  | .high => bar.high
  | .low => bar.low
  | .close => bar.close
  | .volume => bar.volumeQuantity

/-- The range of a bar, stretched to the close before it. -/
def trueRange (bar : Bar α) (previousClose : α) : α :=
  Quantity.max
    (Quantity.max (bar.high - bar.low) (Quantity.abs (bar.high - previousClose)))
    (Quantity.abs (bar.low - previousClose))

/-- The last prices of bars. -/
def closes (bars : List (Bar α)) : List α := bars.map (·.close)

/-- Does a bar come no later than another? -/
def notAfter (a b : Bar α) : Bool := a.date.notAfter b.date

/-- **Bars in order of date**, those of one day in the order given. -/
def sorted (bars : List (Bar α)) : List (Bar α) := bars.mergeSort notAfter

/-- Of bars of the same day that stand together, the last. -/
def lastOfEachDay : List (Bar α) → List (Bar α)
  | [] => []
  | bar :: rest =>
    match lastOfEachDay rest with
    | [] => [bar]
    | next :: more => if bar.date = next.date then next :: more else bar :: next :: more

/-- **Bars with one for each day**, in order: the last one given for the day. -/
def daily (bars : List (Bar α)) : List (Bar α) := lastOfEachDay (sorted bars)

/-- The bars from one day to another, in the order given. -/
def between (start finish : Date) (bars : List (Bar α)) : List (Bar α) :=
  bars.filter fun bar => start.notAfter bar.date && bar.date.notAfter finish

end Bar

end TradeSignals
