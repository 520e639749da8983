import TradeSignals.Vocabulary.Constructor

/-!
# The parameters of a strategy

A strategy is written with keyword arguments only; these are their names.
-/

namespace TradeSignals

/-- The parameters of a strategy. -/
inductive Field where
  /-- What is traded. -/
  | ticker
  /-- Which sides of the market are taken. -/
  | positionType
  /-- When to buy. -/
  | buyCondition
  /-- When to sell. -/
  | sellCondition
  /-- The first day. -/
  | startDate
  /-- The last day. -/
  | endDate
  /-- When to cut a loss. -/
  | stopLoss
  /-- When to take a profit. -/
  | takeProfit
  /-- How much time a bar covers. -/
  | interval
  /-- How far to look back. -/
  | period
  /-- How many dollars there are in the beginning. -/
  | initialCapital
  /-- How much to trade. -/
  | orderSize
  /-- What a trade costs. -/
  | tradeCommissions
deriving DecidableEq

namespace Field

/-- All parameters, in order. -/
def all : List Field :=
  [.ticker, .positionType, .buyCondition, .sellCondition, .startDate, .endDate, .stopLoss,
    .takeProfit, .interval, .period, .initialCapital, .orderSize, .tradeCommissions]

/-- The keyword of a parameter. -/
def key : Field → String
  | .ticker => "ticker"
  | .positionType => "position_type"
  | .buyCondition => "buy_condition"
  | .sellCondition => "sell_condition"
  | .startDate => "start_date"
  | .endDate => "end_date"
  | .stopLoss => "stop_loss"
  | .takeProfit => "take_profit"
  | .interval => "interval"
  | .period => "period"
  | .initialCapital => "initial_capital"
  | .orderSize => "order_size"
  | .tradeCommissions => "trade_commissions"

/-- What a parameter admits. -/
def tag : Field → Tag
  | .ticker => .ticker
  | .positionType => .choice .positionType
  | .buyCondition | .sellCondition => .condition
  | .startDate | .endDate => .date
  | .stopLoss => .stopLoss
  | .takeProfit => .takeProfit
  | .interval => .choice .interval
  | .period => .choice .period
  | .initialCapital => .float
  | .orderSize => .orderSize
  | .tradeCommissions => .commission

/-- A parameter of a strategy as one of the vocabulary. -/
def slot (f : Field) : Slot := ⟨f.key, f.tag⟩

/-- The parameter with a keyword. -/
def ofKey? (key : String) : Option Field := all.find? (·.key == key)

/-- The vocabulary gives a strategy these parameters. -/
theorem slots_strategy : Constructor.strategy.slots = all.map slot := rfl

/-- A parameter is found by its keyword. -/
theorem ofKey?_key (f : Field) : ofKey? f.key = some f := by
  cases f <;> decide

/-- Parameters have different keywords. -/
theorem key_injective : Function.Injective key := fun f g h =>
  Option.some.inj (by rw [← ofKey?_key, h, ofKey?_key])

/-- What is found by a keyword has that keyword. -/
theorem key_of_ofKey? {key : String} {f : Field} (h : ofKey? key = some f) : f.key = key := by
  simpa using List.find?_some h

end Field

end TradeSignals
