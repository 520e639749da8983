import TradeSignals.Market.BarTable
import TradeSignals.Market.Indicator
import TradeSignals.Strategy.Series

/-!
# Where the numbers of a series come from

A source gives the numbers of a series, one for each bar of a table. The usual source
computes them: from the bars of the table itself if the series is on its ticker, and
otherwise from the bars of the other ticker, laid out by date so that a day without such
a bar has no number.
-/

namespace TradeSignals

/-- Gives the numbers of a series for the bars of a table. -/
abbrev SeriesSource (m : Type → Type) := Series → BarTable → m (List Float)

/-- A study of a trailing window, over bars. -/
def Study.over (study : Study) (length : Nat) (bars : List (Bar Float)) : List Float :=
  match study with
  | .sma => Indicator.sma length (Bar.closes bars)
  | .ema => Indicator.ema length (Bar.closes bars)
  | .wma => Indicator.wma length (Bar.closes bars)
  | .rsi => Indicator.rsi length (Bar.closes bars)
  | .roc => Indicator.roc length (Bar.closes bars)
  | .stddev => Indicator.stddev length (Bar.closes bars)
  | .atr => Indicator.atr length bars

/-- **The numbers of a series** over bars, whatever its ticker. -/
def Series.over (s : Series) (bars : List (Bar Float)) : List Float :=
  match s with
  | .constant value => bars.map fun _ => Float.ofInt value.toInt
  | .price _ field => bars.map (·.field field)
  | .windowed study _ length => study.over length.toNat bars
  | .obv _ => Indicator.obv bars
  | .macd _ fast slow => Indicator.macdLine fast.toNat slow.toNat (Bar.closes bars)
  | .macdSignal _ fast slow signal =>
    Indicator.macdSignal fast.toNat slow.toNat signal.toNat (Bar.closes bars)
  | .band .upper _ length deviations =>
    Indicator.upperBand length.toNat deviations (Bar.closes bars)
  | .band .lower _ length deviations =>
    Indicator.lowerBand length.toNat deviations (Bar.closes bars)
  | .retracement _ level length => Indicator.retracement level length.toNat bars

namespace SeriesSource

/-- The bars of tickers, each in order of date. -/
abbrev TickerBars := Dictionary (List (Bar Float))

/-- The bars of tickers together with those of one more. -/
def register (others : TickerBars) (ticker : String) (bars : List (Bar Float)) : TickerBars :=
  others.put ticker (Bar.sorted bars)

/-- Numbers that belong to bars, laid out on given days. Of several bars of one day the
last counts. -/
def align (bars : List (Bar Float)) (values : List Float) (days : List Date) : List Float :=
  let dated := (bars.zip values).reverse
  days.map fun day => ((dated.find? fun b => b.1.date = day).map (·.2)).getD Quantity.missing

/-- **The source that computes:** from the bars of the table, or from those of another
ticker. A ticker without bars has no numbers. -/
def ofBars {m : Type → Type} [Monad m] (others : TickerBars) : SeriesSource m := fun s t =>
  match s.ticker?.filter (· ≠ t.ticker) with
  | none => pure (s.over t.bars)
  | some ticker =>
    match others.get? ticker with
    | some bars => pure (align bars (s.over bars) t.dates)
    | none => pure (Quantity.gaps t.size)

/-- The source that gives every series on a ticker the same numbers, whatever it is. -/
def ofColumns {m : Type → Type} [Monad m] (columns : Dictionary (List Float)) :
    SeriesSource m := fun s t =>
  match s with
  | .constant _ => pure (s.over t.bars)
  | _ => pure ((s.ticker?.bind columns.get?).getD (Quantity.gaps t.size))

end SeriesSource

end TradeSignals
