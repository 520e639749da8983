import TradeSignals.Files.Csv
import TradeSignals.Files.Host
import TradeSignals.Market.BarTable
import TradeSignals.Trades.Backtest

/-!
# Files of bars and of signals

The bars of a ticker are kept in a file of records named after it: date, first, highest,
lowest and last price, and volume. Every record needs a date that can be read, but the
numbers are looked at only if the date is one that is asked for.

A table is written in the same form, with the columns of a run behind the bars, so that
it can be read back as bars.
-/

namespace TradeSignals.BarFile

/-! ### Reading -/

/-- A field of a row, without the blanks around it. -/
def field (row : List String) (index : Nat) (column : String) : Except DataFault String :=
  match row[index]? with
  | some text => .ok (Text.trim text)
  | none => .error (.missingColumn column)

/-- A price in a row. -/
def price (row : List String) (index : Nat) (column : String) : Except DataFault Float := do
  (readFloat (← field row index column)).mapError (.badPrice column)

/-- The volume in a row. -/
def volume (row : List String) (index : Nat) (column : String) : Except DataFault Int64 := do
  (readInt64 (← field row index column)).mapError (.badVolume column)

/-- The date of a row. -/
def date (row : List String) : Except DataFault Date := do
  (Date.read (← field row 0 "date")).mapError .badDate

/-- The bar of a row whose date is known. -/
def bar (day : Date) (row : List String) : Except DataFault (Bar Float) := do
  let opening ← price row 1 "open"
  let high ← price row 2 "high"
  let low ← price row 3 "low"
  let close ← price row 4 "close"
  let volume ← volume row 5 "volume"
  pure ⟨day, opening, high, low, close, volume⟩

/-- The bar of a row, if its day is one that is asked for. -/
def barBetween (start finish : Date) (row : Except UnequalRecord (List String)) :
    Except DataFault (Option (Bar Float)) := do
  let row ← row.mapError .unequal
  let day ← date row
  if day < start ∨ finish < day then pure none else some <$> bar day row

/-- The bars of rows, in the order of the rows. -/
def barsOfRows (start finish : Date) :
    List (Except UnequalRecord (List String)) → Except DataFault (List (Bar Float))
  | [] => pure []
  | row :: rest => do
    let bar ← barBetween start finish row
    return bar.toList ++ (← barsOfRows start finish rest)

/-- **The bars of a text** from one day to another, in order of date. -/
def bars (text : String) (start finish : Date) : Except DataFault (List (Bar Float)) :=
  Bar.sorted <$> barsOfRows start finish (Csv.rows text)

/-- What the names of such files end in. -/
def ending : String := ".csv"

/-- The path of the file of a ticker. -/
def path (directory ticker : String) : String := Path.join directory (ticker ++ ending)

/-- **The bars of a ticker** from one day to another, from its file in a directory. -/
def source {m : Type → Type} [Monad m] (host : Host m) (directory : String) : BarSource m :=
  fun ticker start finish => do
    match ← host.read (path directory ticker) with
    | .ok text => return bars text start finish
    | .error fault => return .error (.unreadable (path directory ticker) fault)

/-- The ticker that a file is named after. -/
def tickerOf? (name : String) : Option String :=
  if name.endsWith ending then some (name.dropEnd ending.length).toString else none

/-- **The tickers** with a file in a directory, in order, from a listing of its names. -/
def tickers (directory : String) (names : Except FileFault (List String)) :
    Except DataFault (List String) :=
  match names with
  | .ok names => .ok ((names.filterMap tickerOf?).mergeSort fun a b => decide (a ≤ b))
  | .error fault => .error (.unlistable directory fault)

/-! ### Writing -/

/-- The names of the columns. -/
def heading : List String :=
  ["date", "open", "high", "low", "close", "volume", "buy", "sell", "buy_signals",
    "sell_signals", "long", "short"]

/-- A flag in a file. -/
def flagText (flag : Option Bool) : String := if flag = some true then "true" else "false"

/-- A change of position in a file. -/
def changeText (change : Option (Option TradeKind)) : String :=
  (change.join.map TradeKind.name).getD ""

/-- A price in a file. -/
def priceText (price : Float) : String := NumberLayout.plain.text price

/-- The record of a bar of a table. -/
def row (t : BarTable) (index : Nat) (bar : Bar Float) : List String :=
  [bar.date.text, priceText bar.opening, priceText bar.high, priceText bar.low,
    priceText bar.close, toString bar.volume, flagText t.buy[index]?, flagText t.sell[index]?,
    t.buySignals[index]?.join.getD "", t.sellSignals[index]?.join.getD "",
    changeText t.long[index]?, changeText t.short[index]?]

/-- **A table as text**, its columns behind its bars. -/
def text (t : BarTable) : String :=
  Csv.line heading ++ String.join (t.bars.mapIdx fun index bar => Csv.line (row t index bar))

/-- **Writes a table** into a file. -/
def write {m : Type → Type} [Monad m] (host : Host m) (path : String) (t : BarTable) :
    m (Except DataFault Unit) := do
  match ← host.write path (text t) with
  | .ok () => return .ok ()
  | .error fault => return .error (.unwritable path fault)

end TradeSignals.BarFile
