import TradeSignals.Calendar.DateText
import TradeSignals.Strategy.Condition

/-!
# Strategies

A strategy says when to buy and when to sell one ticker, and with it how large a
position is, when to leave it early, and over which time it is meant. A strategy is
written as one call with keyword arguments in a fixed order; what is optional and
absent is not written.
-/

namespace TradeSignals

/-- When to cut a loss. The percentage is of any kind of number, so that exits can be
studied in exact arithmetic as well. -/
structure StopLoss (α : Type) where
  /-- What the loss is measured from. -/
  kind : StopKind
  /-- How many percent of it may be lost. -/
  percent : α
deriving DecidableEq

/-- When to take a profit. -/
structure TakeProfit (α : Type) where
  /-- How many percent of the entry price are to be gained. -/
  percent : α
deriving DecidableEq

/-- How much to trade. -/
inductive OrderSize where
  /-- So many contracts. -/
  | contracts (count : Int64)
  /-- So many dollars. -/
  | usd (amount : Float)
  /-- So many percent of what is owned. -/
  | percentOfPortfolio (percent : Float)
deriving DecidableEq

/-- What a trade costs. -/
inductive Commission where
  /-- The same for every trade. -/
  | fixed (amount : Float)
  /-- So many percent of the trade. -/
  | percent (rate : Float)
deriving DecidableEq

/-- A stop loss as an expression. -/
def StopLoss.toExpr (stop : StopLoss Float) : Expr :=
  .call Constructor.stopLoss.name []
    [("stop_loss_type", .member ChoiceKind.stopKind.name (Choice.label stop.kind)),
      ("percent", .float stop.percent)]

/-- A take profit as an expression. -/
def TakeProfit.toExpr (profit : TakeProfit Float) : Expr :=
  .call Constructor.takeProfit.name [] [("percent", .float profit.percent)]

/-- An order size as an expression. -/
def OrderSize.toExpr : OrderSize → Expr
  | .contracts count => .call Constructor.contracts.name [] [("value", .int count)]
  | .usd amount => .call Constructor.usd.name [] [("value", .float amount)]
  | .percentOfPortfolio percent =>
    .call Constructor.percentOfPortfolio.name [] [("value", .float percent)]

/-- A commission as an expression. -/
def Commission.toExpr : Commission → Expr
  | .fixed amount => .call Constructor.fixedCommission.name [] [("value", .float amount)]
  | .percent rate => .call Constructor.percentCommission.name [] [("value", .float rate)]

/-- A strategy. -/
structure Strategy where
  /-- What is traded. -/
  ticker : String
  /-- Which sides of the market are taken. -/
  positionType : PositionType
  /-- When to buy. -/
  buyCondition : Condition
  /-- When to sell. -/
  sellCondition : Condition
  /-- The first day, if it is given. -/
  startDate : Option Date
  /-- The last day, if it is given. -/
  endDate : Option Date
  /-- When to cut a loss, if ever. -/
  stopLoss : Option (StopLoss Float)
  /-- When to take a profit, if ever. -/
  takeProfit : Option (TakeProfit Float)
  /-- How much time a bar covers. -/
  interval : Interval
  /-- How far to look back, if that is given. -/
  period : Option Period
  /-- How many dollars there are in the beginning. -/
  initialCapital : Float
  /-- How much to trade. -/
  orderSize : OrderSize
  /-- What a trade costs, if anything. -/
  tradeCommissions : Option Commission

namespace Strategy

/-- A member of one of the enumerations as an expression. -/
def memberExpr {α : Type} [Choice α] (kind : ChoiceKind) (a : α) : Expr :=
  .member kind.name (Choice.label a)

/-- A date as an expression. -/
def dateExpr (d : Date) : Expr := .quoted d.text

/-- An optional parameter: no keyword if it is absent. -/
def optional {α : Type} (key : String) (toExpr : α → Expr) (value : Option α) :
    List (String × Expr) :=
  value.toList.map fun a => (key, toExpr a)

/-- The keyword arguments of a strategy, in order. -/
def keywords (s : Strategy) : List (String × Expr) :=
  [("ticker", .quoted s.ticker), ("position_type", memberExpr .positionType s.positionType),
    ("buy_condition", s.buyCondition.toExpr), ("sell_condition", s.sellCondition.toExpr)] ++
  optional "start_date" dateExpr s.startDate ++
  optional "end_date" dateExpr s.endDate ++
  optional "stop_loss" StopLoss.toExpr s.stopLoss ++
  optional "take_profit" TakeProfit.toExpr s.takeProfit ++
  [("interval", memberExpr .interval s.interval)] ++
  optional "period" (memberExpr .period) s.period ++
  [("initial_capital", .float s.initialCapital), ("order_size", s.orderSize.toExpr)] ++
  optional "trade_commissions" Commission.toExpr s.tradeCommissions

/-- **A strategy as an expression.** -/
def toExpr (s : Strategy) : Expr :=
  .call Constructor.strategy.name [] s.keywords

/-- The canonical text of a strategy. -/
def text (s : Strategy) : String := s.toExpr.text

end Strategy

end TradeSignals
