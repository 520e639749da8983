import TradeSignals.Dictionary
import TradeSignals.Market.Bar
import TradeSignals.Trades.Reconciliation

/-!
# Bar tables

The bars of one ticker, one for each day and in order of date, with room beside them:
the series that have been read so far, kept under their canonical texts, and the columns
that a run of a strategy writes.
-/

namespace TradeSignals

/-- The bars of a ticker with the columns that belong to them. -/
structure BarTable where
  /-- The ticker. -/
  ticker : String
  /-- The bars. -/
  bars : List (Bar Float)
  /-- Series that have been read, by their canonical texts. -/
  cache : Dictionary (List Float)
  /-- On which bars something is bought. -/
  buy : List Bool
  /-- On which bars something is sold. -/
  sell : List Bool
  /-- Why something is bought. -/
  buySignals : List (Option String)
  /-- Why something is sold. -/
  sellSignals : List (Option String)
  /-- The changes on the long side. -/
  long : List (Option TradeKind)
  /-- The changes on the short side. -/
  short : List (Option TradeKind)

namespace BarTable

/-- **The table of bars** of a ticker, with empty columns. The bars may come in any
order; of several for one day the last counts. -/
def ofBars (ticker : String) (bars : List (Bar Float)) : BarTable :=
  let bars := Bar.daily bars
  let count := bars.length
  { ticker := ticker
    bars := bars
    cache := .empty
    buy := List.replicate count false
    sell := List.replicate count false
    buySignals := List.replicate count none
    sellSignals := List.replicate count none
    long := List.replicate count none
    short := List.replicate count none }

/-- How many bars there are. -/
def size (t : BarTable) : Nat := t.bars.length

/-- The days of the bars. -/
def dates (t : BarTable) : List Date := t.bars.map (·.date)

/-- Which bar is that of a day. It is searched for; a map from days to places, filled from
the bars when a table is made, has the same answers
(`TradeSignals.BarTable.dayIndex_eq_index?`). -/
def index? (t : BarTable) (d : Date) : Option Nat := t.dates.findIdx? (· = d)

/-- A number of every bar. -/
def column (t : BarTable) (field : PriceField) : List Float := t.bars.map (·.field field)

/-- Keeps the values of a series under its text. -/
def keep (t : BarTable) (key : String) (values : List Float) : BarTable :=
  { t with cache := t.cache.put key values }

end BarTable

end TradeSignals
