import TradeSignals.Expr.Printer
import TradeSignals.Vocabulary.Constructor

/-!
# Series

A series has one number for every bar. All but the constant one are read from the
bars of a ticker, which the series carries with it; two series with the same
canonical text are the same series, so the text can stand for it as a key.

Lengths are counted in words of 64 bits. In text they are written as signed integers
of the same width, so a length with the top bit set shows up negative.
-/

namespace TradeSignals

/-- What is computed from a trailing window of one length. -/
inductive Study where
  /-- The simple moving average. -/
  | sma
  /-- The exponential moving average. -/
  | ema
  /-- The weighted moving average. -/
  | wma
  /-- The relative strength index. -/
  | rsi
  /-- The rate of change. -/
  | roc
  /-- The standard deviation. -/
  | stddev
  /-- The average true range. -/
  | atr
deriving DecidableEq

/-- The constructor of a study. -/
def Study.constructor : Study → Constructor
  | .sma => .sma
  | .ema => .ema
  | .wma => .wma
  | .rsi => .rsi
  | .roc => .roc
  | .stddev => .stddev
  | .atr => .atr

/-- On which side of an average a band lies. -/
inductive BandSide where
  /-- Above it. -/
  | upper
  /-- Below it. -/
  | lower
deriving DecidableEq

/-- The constructor of a band. -/
def BandSide.constructor : BandSide → Constructor
  | .upper => .upperBand
  | .lower => .lowerBand

/-- Series of numbers, one for each bar. -/
inductive Series where
  /-- One number for every bar. -/
  | constant (value : Int64)
  /-- A number of the bars themselves. -/
  | price (ticker : String) (field : PriceField)
  /-- A study of a trailing window. -/
  | windowed (study : Study) (ticker : String) (length : UInt64)
  /-- The on-balance volume. -/
  | obv (ticker : String)
  /-- The distance between a fast and a slow exponential average. -/
  | macd (ticker : String) (fast slow : UInt64)
  /-- The exponential average of that distance. -/
  | macdSignal (ticker : String) (fast slow signal : UInt64)
  /-- The average, moved by so many standard deviations. -/
  | band (side : BandSide) (ticker : String) (length : UInt64) (deviations : Float)
  /-- A level between the high and the low of a trailing window. -/
  | retracement (ticker : String) (level : Retracement) (length : UInt64)
deriving DecidableEq

namespace Series

/-- The constructor of a series. -/
def constructor : Series → Constructor
  | .constant _ => .const
  | .price _ _ => .price
  | .windowed study _ _ => study.constructor
  | .obv _ => .obv
  | .macd _ _ _ => .macd
  | .macdSignal _ _ _ _ => .macdSignal
  | .band side _ _ _ => side.constructor
  | .retracement _ _ _ => .retracement

/-- The name of a series in strategy text. -/
def name (s : Series) : String := s.constructor.name

/-- The ticker whose bars a series is read from. -/
def ticker? : Series → Option String
  | .constant _ => none
  | .price ticker _ | .windowed _ ticker _ | .obv ticker | .macd ticker _ _
  | .macdSignal ticker _ _ _ | .band _ ticker _ _ | .retracement ticker _ _ => some ticker

/-- A length as an integer of strategy text. -/
def lengthExpr (length : UInt64) : Expr := .int length.toInt64

/-- The parameters of a series, its ticker left out. -/
def keywords : Series → List (String × Expr)
  | .constant _ | .obv _ => []
  | .price _ field => [("price_type", .member ChoiceKind.priceField.name (Choice.label field))]
  | .windowed _ _ length => [("length", lengthExpr length)]
  | .macd _ fast slow => [("fast_length", lengthExpr fast), ("slow_length", lengthExpr slow)]
  | .macdSignal _ fast slow signal =>
    [("fast_length", lengthExpr fast), ("slow_length", lengthExpr slow),
      ("signal_length", lengthExpr signal)]
  | .band _ _ length deviations => [("length", lengthExpr length), ("std_dev", .float deviations)]
  | .retracement _ level length =>
    [("level", .member Retracement.kindName (Choice.label level)), ("length", lengthExpr length)]

/-- What stands before the parameters: the value of a constant series, the ticker of
all others. -/
def positional : Series → List Expr
  | .constant value => [.int value]
  | s => s.ticker?.toList.map Expr.quoted

/-- **A series as an expression.** -/
def toExpr (s : Series) : Expr :=
  .call s.name s.positional s.keywords

/-- The canonical text of a series. -/
def text (s : Series) : String := s.toExpr.text

/-- Every series but the constant one has a ticker. -/
theorem ticker?_eq_none_iff {s : Series} : s.ticker? = none ↔ ∃ v, s = .constant v := by
  cases s <;> simp [ticker?]

/-- The constructor of a series builds a series. -/
theorem category_constructor (s : Series) : s.constructor.category = .series := by
  cases s with
  | windowed study => cases study <;> rfl
  | band side => cases side <;> rfl
  | _ => rfl

example : (windowed .sma "AAPL" 20).text = "SMA('AAPL', length=20)" := rfl

end Series

end TradeSignals
