import TradeSignals.Failure
import TradeSignals.Signals.Evaluation
import TradeSignals.Trades.ExitOverlay

/-!
# Running a strategy

A strategy is run over a table: its two conditions are evaluated, the signals are
reconciled under its exits, and the table gets the columns that say what is done on each
bar and why. Before that the bars are loaded, first those of the strategy's own ticker
and then those of every other ticker that its conditions read.
-/

namespace TradeSignals

/-- The label of a position that is closed because there are no more bars. -/
def endOfDataLabel : String := "EndOfData"

namespace Strategy

/-- The exits of a strategy over closes. -/
def exits (s : Strategy) (closes : List Float) : ExitOverlay Float :=
  ⟨closes, s.stopLoss, s.takeProfit⟩

/-- The reasons for what is done on each bar: that of the exit if one fired, else that of
the signal, else the end of the bars. -/
def reasons (fired : ExitOverlay.Memory Float) (signals : Signals) (flags : List Bool) :
    List (Option String) :=
  flags.mapIdx fun bar on =>
    if on then
      some (((fired.causeAt? bar).map ExitCause.label).getD
        ((signals[bar]?.join).getD endOfDataLabel))
    else none

/-- The table with the columns of a run. -/
def record (t : BarTable) (rows : List TradeRow) (fired : ExitOverlay.Memory Float)
    (buy sell : Signals) : BarTable :=
  { t with
    buy := rows.map (·.buy)
    sell := rows.map (·.sell)
    buySignals := reasons fired buy (rows.map (·.buy))
    sellSignals := reasons fired sell (rows.map (·.sell))
    long := rows.map (·.long)
    short := rows.map (·.short) }

/-- **Runs a strategy** over the table. -/
def run {m : Type → Type} [Monad m] (source : SeriesSource m) (s : Strategy) :
    StateT BarTable m (List TradeRow) := do
  let buy ← BarTable.evaluate source s.buyCondition
  let sell ← BarTable.evaluate source s.sellCondition
  let t ← get
  let overlay := s.exits (Bar.closes t.bars)
  let (rows, fired) :=
    Reconciliation.withExits s.positionType overlay.rule .start buy.flags sell.flags
  set (record t rows fired buy sell)
  return rows

/-- The tickers other than its own that a strategy reads, in order and once each. -/
def otherTickers (s : Strategy) : List String :=
  let tickers := (s.buyCondition.series ++ s.sellCondition.series).filterMap Series.ticker?
  ((tickers.filter (· ≠ s.ticker)).mergeSort fun a b => decide (a ≤ b)).eraseDups

end Strategy

/-- Where bars come from: those of a ticker from one day to another. -/
abbrev BarSource (m : Type → Type) := String → Date → Date → m (Except DataFault (List (Bar Float)))

/-- What loads the bars of a ticker from one day to another. If there is a failure, it ends the
run. -/
abbrev BarLoader (m : Type → Type) := String → Date → Date → ExceptT Failure m (List (Bar Float))

variable {m : Type → Type} [Monad m]

/-- The source of bars that are there already, in the order in which they are there. -/
def BarSource.ofBars (stored : String → List (Bar Float)) : BarSource m :=
  fun ticker start finish => pure (.ok (Bar.between start finish (stored ticker)))

namespace Backtest

/-- The bars of a ticker, or the failure to get them. -/
def fetch (source : BarSource m) : BarLoader m := fun ticker start finish => do
  match ← (source ticker start finish : m _) with
  | .ok bars => return bars
  | .error fault => throw (.data fault)

/-- The bars of several tickers. -/
def fetchAll (announce : String → m Unit) (load : BarLoader m) (start finish : Date)
    (others : SeriesSource.TickerBars) :
    List String → ExceptT Failure m SeriesSource.TickerBars
  | [] => return others
  | ticker :: rest => do
    (announce s!"Loading {ticker} bars for cross-ticker series" : m Unit)
    let bars ← load ticker start finish
    fetchAll announce load start finish (SeriesSource.register others ticker bars) rest

/-- **Runs a strategy** over the bars that are loaded for it: the table with its columns, and the
rows of the reconciliation. -/
def runLoading (announce : String → m Unit) (load : BarLoader m) (s : Strategy)
    (start finish : Date) : ExceptT Failure m (BarTable × List TradeRow) := do
  (announce s!"Loading {s.ticker} bars {start.text} to {finish.text}" : m Unit)
  let bars ← load s.ticker start finish
  if bars.isEmpty then throw (.noData s.ticker)
  let others ← fetchAll announce load start finish .empty s.otherTickers
  let (rows, t) := Id.run ((s.run (SeriesSource.ofBars others)).run (.ofBars s.ticker bars))
  return (t, rows)

/-- **Runs a strategy** over the bars of a source from one day to another. -/
def run (announce : String → m Unit) (source : BarSource m) (s : Strategy)
    (start finish : Date) : ExceptT Failure m (BarTable × List TradeRow) :=
  runLoading announce (fetch source) s start finish

end Backtest

end TradeSignals
