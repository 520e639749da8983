import TradeSignals.Vocabulary.Choice

/-!
# The constructors of the strategy language

Every call that may stand in strategy text, with the category of what it builds and
its parameters in order. The list is the whole vocabulary: a name that is not on it
builds nothing, and what a parameter admits is said by its tag alone.

The vocabulary may also be kept as text, with a line for each constructor. The lines, how
they are read, and that they come to what is said here, are in
`TradeSignals.Proofs.Vocabulary.Registry`.
-/

namespace TradeSignals

/-- What a constructor builds. -/
inductive Category where
  /-- A whole strategy. -/
  | strategy
  /-- A condition on bars. -/
  | condition
  /-- A series of numbers, one for each bar. -/
  | series
  /-- How much to trade. -/
  | orderSize
  /-- What a trade costs. -/
  | commission
  /-- When to cut a loss. -/
  | stopLoss
  /-- When to take a profit. -/
  | takeProfit
deriving DecidableEq

namespace Category

/-- All categories. -/
def all : List Category :=
  [.strategy, .condition, .series, .orderSize, .commission, .stopLoss, .takeProfit]

/-- The name of a category. -/
def name : Category → String
  | .strategy => "Strategy"
  | .condition => "Condition"
  | .series => "TradingSeries"
  | .orderSize => "OrderSize"
  | .commission => "Commission"
  | .stopLoss => "StopLoss"
  | .takeProfit => "TakeProfit"

/-- The category with a name. -/
def ofName? (name : String) : Option Category :=
  all.find? (·.name == name)

end Category

/-- The sets that a parameter may be a member of. Retracement levels are not among
them: a parameter for a level also admits the ratio itself. -/
inductive ChoiceKind where
  /-- Which sides of the market to take. -/
  | positionType
  /-- How much time a bar covers. -/
  | interval
  /-- How far to look back. -/
  | period
  /-- A number of a bar. -/
  | priceField
  /-- What a stop loss measures from. -/
  | stopKind
deriving DecidableEq

namespace ChoiceKind

/-- All sets. -/
def all : List ChoiceKind := [.positionType, .interval, .period, .priceField, .stopKind]

/-- The name of a set in strategy text. -/
def name : ChoiceKind → String
  | .positionType => "PositionType"
  | .interval => "Interval"
  | .period => "Period"
  | .priceField => "PriceType"
  | .stopKind => "StopLossType"

/-- The set with a name. -/
def ofName? (name : String) : Option ChoiceKind :=
  all.find? (·.name == name)

/-- The names of the members of a set. -/
def labels : ChoiceKind → List String
  | .positionType => Choice.labels PositionType
  | .interval => Choice.labels Interval
  | .period => Choice.labels Period
  | .priceField => Choice.labels PriceField
  | .stopKind => Choice.labels StopKind

end ChoiceKind

/-- What a parameter admits. -/
inductive Tag where
  /-- An integer. -/
  | int
  /-- A number. -/
  | float
  /-- A truth value. -/
  | bool
  /-- The name under which a security is traded. -/
  | ticker
  /-- A day. -/
  | date
  /-- A member of a set. -/
  | choice (kind : ChoiceKind)
  /-- A condition. -/
  | condition
  /-- A series. -/
  | series
  /-- A retracement level. -/
  | retracement
  /-- How much to trade. -/
  | orderSize
  /-- What a trade costs. -/
  | commission
  /-- When to cut a loss. -/
  | stopLoss
  /-- When to take a profit. -/
  | takeProfit
deriving DecidableEq

namespace Tag

/-- The name of a tag. -/
def name : Tag → String
  | .int => "Int"
  | .float => "Float"
  | .bool => "Bool"
  | .ticker => "Ticker"
  | .date => "Date"
  | .choice kind => "Enum(" ++ kind.name ++ ")"
  | .condition => "Condition"
  | .series => "TradingSeries"
  | .retracement => "FibonacciLevel"
  | .orderSize => "OrderSize"
  | .commission => "TradeCommissions"
  | .stopLoss => "StopLoss"
  | .takeProfit => "TakeProfit"

/-- All tags. -/
def all : List Tag :=
  [.int, .float, .bool, .ticker, .date] ++ ChoiceKind.all.map .choice ++
    [.condition, .series, .retracement, .orderSize, .commission, .stopLoss, .takeProfit]

/-- The tag with a name. -/
def ofName? (name : String) : Option Tag :=
  all.find? (·.name == name)

end Tag

/-- A parameter of a constructor. -/
structure Slot where
  /-- The keyword of the parameter. -/
  name : String
  /-- What the parameter admits. -/
  tag : Tag
deriving DecidableEq

/-- The constructors. -/
inductive Constructor where
  /-- A whole strategy. -/
  | strategy
  /-- One series above another. -/
  | greaterThan
  /-- One series below another. -/
  | lessThan
  /-- One series rising through another. -/
  | crossOver
  /-- One series falling through another. -/
  | crossUnder
  /-- All of several conditions. -/
  | and
  /-- One of several conditions. -/
  | or
  /-- A condition some bars ago. -/
  | afterDays
  /-- A change over several bars. -/
  | changePerDays
  /-- A change from one bar to the next. -/
  | changePerBar
  /-- A run of steps that do not fall. -/
  | uptrend
  /-- A run of steps that do not rise. -/
  | downtrend
  /-- A number of the bars themselves. -/
  | price
  /-- One number for every bar. -/
  | const
  /-- The simple moving average. -/
  | sma
  /-- The exponential moving average. -/
  | ema
  /-- The weighted moving average. -/
  | wma
  /-- The relative strength index. -/
  | rsi
  /-- The rate of change. -/
  | roc
  /-- The standard deviation. -/
  | stddev
  /-- The average true range. -/
  | atr
  /-- The on-balance volume. -/
  | obv
  /-- The distance between a fast and a slow average. -/
  | macd
  /-- The average of that distance. -/
  | macdSignal
  /-- The band above the average. -/
  | upperBand
  /-- The band below the average. -/
  | lowerBand
  /-- A level between a high and a low. -/
  | retracement
  /-- When to cut a loss. -/
  | stopLoss
  /-- When to take a profit. -/
  | takeProfit
  /-- A number of contracts. -/
  | contracts
  /-- An amount of dollars. -/
  | usd
  /-- A part of what is owned. -/
  | percentOfPortfolio
  /-- The same cost for every trade. -/
  | fixedCommission
  /-- A part of the trade. -/
  | percentCommission
deriving DecidableEq

namespace Constructor

/-- All constructors, in the order of the vocabulary. -/
def all : List Constructor :=
  [.strategy, .greaterThan, .lessThan, .crossOver, .crossUnder, .and, .or, .afterDays,
    .changePerDays, .changePerBar, .uptrend, .downtrend, .price, .const, .sma, .ema, .wma,
    .rsi, .roc, .stddev, .atr, .obv, .macd, .macdSignal, .upperBand, .lowerBand,
    .retracement, .stopLoss, .takeProfit, .contracts, .usd, .percentOfPortfolio,
    .fixedCommission, .percentCommission]

/-- The name of a constructor in strategy text. -/
def name : Constructor → String
  | .strategy => "Strategy"
  | .greaterThan => "GreaterThanCondition"
  | .lessThan => "LessThanCondition"
  | .crossOver => "CrossOverCondition"
  | .crossUnder => "CrossUnderCondition"
  | .and => "AND"
  | .or => "OR"
  | .afterDays => "AfterXDaysCondition"
  | .changePerDays => "ChangeOfXPercentPerYDaysCondition"
  | .changePerBar => "IntraIntervalChangeOfXPercentCondition"
  | .uptrend => "UptrendForXDaysCondition"
  | .downtrend => "DowntrendForXDaysCondition"
  | .price => "PRICE"
  | .const => "CONST"
  | .sma => "SMA"
  | .ema => "EMA"
  | .wma => "WMA"
  | .rsi => "RSI"
  | .roc => "ROC"
  | .stddev => "STDDEV"
  | .atr => "ATR"
  | .obv => "OBV"
  | .macd => "MACD"
  | .macdSignal => "MACD_SIGNAL"
  | .upperBand => "BBANDS_UPPER"
  | .lowerBand => "BBANDS_LOWER"
  | .retracement => "FIB_RETRACEMENT"
  | .stopLoss => "StopLoss"
  | .takeProfit => "TakeProfit"
  | .contracts => "Contracts"
  | .usd => "USD"
  | .percentOfPortfolio => "PercentOfPortfolio"
  | .fixedCommission => "FixedCommission"
  | .percentCommission => "PercentCommission"

/-- What a constructor builds. -/
def category : Constructor → Category
  | .strategy => .strategy
  | .greaterThan | .lessThan | .crossOver | .crossUnder | .and | .or | .afterDays
  | .changePerDays | .changePerBar | .uptrend | .downtrend => .condition
  | .price | .const | .sma | .ema | .wma | .rsi | .roc | .stddev | .atr | .obv | .macd
  | .macdSignal | .upperBand | .lowerBand | .retracement => .series
  | .stopLoss => .stopLoss
  | .takeProfit => .takeProfit
  | .contracts | .usd | .percentOfPortfolio => .orderSize
  | .fixedCommission | .percentCommission => .commission

/-- The parameters of a constructor, in order. -/
def slots : Constructor → List Slot
  | .strategy =>
    [⟨"ticker", .ticker⟩, ⟨"position_type", .choice .positionType⟩,
      ⟨"buy_condition", .condition⟩, ⟨"sell_condition", .condition⟩, ⟨"start_date", .date⟩,
      ⟨"end_date", .date⟩, ⟨"stop_loss", .stopLoss⟩, ⟨"take_profit", .takeProfit⟩,
      ⟨"interval", .choice .interval⟩, ⟨"period", .choice .period⟩,
      ⟨"initial_capital", .float⟩, ⟨"order_size", .orderSize⟩,
      ⟨"trade_commissions", .commission⟩]
  | .greaterThan | .lessThan | .crossOver | .crossUnder =>
    [⟨"first_series", .series⟩, ⟨"second_series", .series⟩]
  | .and | .or => [⟨"conditions", .condition⟩]
  | .afterDays => [⟨"base_condition", .condition⟩, ⟨"days", .int⟩]
  | .changePerDays => [⟨"series", .series⟩, ⟨"percent", .float⟩, ⟨"number_of_days", .int⟩]
  | .changePerBar => [⟨"series", .series⟩, ⟨"percent", .float⟩]
  | .uptrend | .downtrend => [⟨"series", .series⟩, ⟨"number_of_days", .int⟩]
  | .price => [⟨"price_type", .choice .priceField⟩]
  | .const => [⟨"value", .int⟩]
  | .sma | .ema | .wma | .rsi | .roc | .stddev | .atr => [⟨"length", .int⟩]
  | .obv => []
  | .macd => [⟨"fast_length", .int⟩, ⟨"slow_length", .int⟩]
  | .macdSignal => [⟨"fast_length", .int⟩, ⟨"slow_length", .int⟩, ⟨"signal_length", .int⟩]
  | .upperBand | .lowerBand => [⟨"length", .int⟩, ⟨"std_dev", .float⟩]
  | .retracement => [⟨"level", .retracement⟩, ⟨"length", .int⟩]
  | .stopLoss => [⟨"stop_loss_type", .choice .stopKind⟩, ⟨"percent", .float⟩]
  | .takeProfit => [⟨"percent", .float⟩]
  | .contracts => [⟨"value", .int⟩]
  | .usd | .percentOfPortfolio | .fixedCommission | .percentCommission => [⟨"value", .float⟩]

/-- Does a constructor take any number of arguments for its one parameter? -/
def variadic : Constructor → Bool
  | .and | .or => true
  | _ => false

/-- Series are read from the bars of a ticker, all but the constant one. -/
def takesTicker (c : Constructor) : Bool :=
  c.category = .series && c != .const

/-- The parameter with a keyword. -/
def slot? (c : Constructor) (keyword : String) : Option Slot :=
  c.slots.find? (·.name == keyword)

/-- The constructor with a name. -/
def ofName? (name : String) : Option Constructor :=
  all.find? (·.name == name)

/-- The constructor with a name, if it builds what is asked for. -/
def ofNameIn? (category : Category) (name : String) : Option Constructor :=
  (ofName? name).filter (·.category = category)

/-- The names of the constructors that build something, in the order of the
vocabulary. -/
def namesIn (category : Category) : List String :=
  (all.filter (·.category = category)).map name

/-- A constructor on one line: its name, what it builds, and its parameters with a star
before those that take any number of arguments. -/
def line (c : Constructor) : String :=
  let star := if c.variadic then "*" else ""
  let parameters := c.slots.map fun s => star ++ s.name ++ ":" ++ s.tag.name
  s!"{c.name} [{c.category.name}] " ++ " ".intercalate parameters

/-- **The vocabulary**, one constructor on a line. -/
def table : String :=
  String.join (all.map fun c => c.line ++ "\n")

/-- The list of all constructors is complete. -/
theorem mem_all (c : Constructor) : c ∈ all := by
  cases c <;> decide

/-- No two constructors have the same name. -/
theorem name_injective {a b : Constructor} (h : a.name = b.name) : a = b := by
  revert h
  cases a <;> cases b <;> decide

/-- A constructor is found by its name. -/
theorem ofName?_name (c : Constructor) : ofName? c.name = some c := by
  cases c <;> decide

/-- What is found by a name has that name. -/
theorem name_of_ofName? {name : String} {c : Constructor} (h : ofName? name = some c) :
    c.name = name := by
  simpa using List.find?_some h

end Constructor

end TradeSignals
