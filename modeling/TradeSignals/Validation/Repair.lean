import TradeSignals.Expr.ParseError
import TradeSignals.Strategy.Field
import TradeSignals.Validation.Defaults
import TradeSignals.Validation.Fault

/-!
# Repairs and rejections

What the validation of a strategy changes, and why it can fail, as causes. Every
repair has the key that it is recorded under and a message, and so has a rejection.
-/

namespace TradeSignals

/-- What takes the place of a parameter of a strategy. -/
inductive Fallback where
  /-- The default sides of the market. -/
  | positionType (value : PositionType)
  /-- The default first day, unless it lies in the future. -/
  | startDate (default : Date) (usable : Bool)
  /-- The default last day, unless it lies in the future. -/
  | endDate (default : Date) (usable : Bool)
  /-- No stop loss. -/
  | noStopLoss
  /-- No take profit. -/
  | noTakeProfit
  /-- The default interval. -/
  | interval (value : Interval)
  /-- No period. -/
  | noPeriod
  /-- The default capital. -/
  | initialCapital (value : Float)
  /-- The default order size. -/
  | orderSize (value : OrderSize)
  /-- No commission. -/
  | noTradeCommissions
  /-- Nothing. -/
  | removed

/-- The text for a default date. -/
def Fallback.dateText (which : String) (default : Date) (usable : Bool) : String :=
  if usable then s!"using default {which} {default.text}"
  else s!"default {which} {default.text} is in the future; {which} removed"

/-- What is said about a fallback. -/
def Fallback.message : Fallback → String
  | .positionType value => "using default PositionType." ++ Choice.label value
  | .startDate default usable => dateText "start date" default usable
  | .endDate default usable => dateText "end date" default usable
  | .noStopLoss => "using no stop loss"
  | .noTakeProfit => "using no take profit"
  | .interval value => "using default Interval." ++ Choice.label value
  | .noPeriod => "period removed"
  | .initialCapital value => "using default initial capital " ++ NumberLayout.plain.text value
  | .orderSize value => "using default " ++ value.toExpr.text
  | .noTradeCommissions => "using no trade commissions"
  | .removed => "parameter removed"

/-- What takes the place of a parameter that has no usable value. -/
def Fallback.of (defaults : Defaults) (today : Date) : Field → Fallback
  | .positionType => .positionType defaults.positionType
  | .startDate => .startDate defaults.startDate (defaults.startDate.notAfter today)
  | .endDate => .endDate defaults.endDate (defaults.endDate.notAfter today)
  | .stopLoss => .noStopLoss
  | .takeProfit => .noTakeProfit
  | .interval => .interval defaults.interval
  | .period => .noPeriod
  | .initialCapital => .initialCapital defaults.initialCapital
  | .orderSize => .orderSize defaults.orderSize
  | .tradeCommissions => .noTradeCommissions
  | .ticker | .buyCondition | .sellCondition => .removed

/-- A change that the validation of a strategy makes. -/
inductive Repair where
  /-- A note about a part of a parameter. -/
  | inside (side : Field) (note : Note)
  /-- Positional arguments are left out. -/
  | positionalDropped (count : Nat)
  /-- The ticker is not one, or is not given. -/
  | tickerReplaced (fault : Option Fault) (default : String)
  /-- A parameter is refused, and something takes its place. -/
  | refused (field : Field) (fault : Fault) (fallback : Fallback)
  /-- A parameter is not given, and something takes its place. -/
  | missing (field : Field) (fallback : Fallback)
  /-- Keyword arguments that name no parameter are left out. -/
  | unknownDropped (keys : List String)
  /-- The dates are out of order, and the defaults or nothing take their place. -/
  | datesReplaced (start finish : Date) (replacement : Option (Date × Date))

namespace Repair

/-- The key of a repair. -/
def key : Repair → String
  | .inside side note => note.key side.key
  | .positionalDropped _ => "positional_arguments"
  | .tickerReplaced _ _ => Field.ticker.key
  | .refused field _ _ => field.key
  | .missing field _ => field.key
  | .unknownDropped _ => "unknown_parameters"
  | .datesReplaced _ _ _ => Field.startDate.key

/-- What is said about a repair. -/
def message : Repair → String
  | .inside _ note => note.message
  | .positionalDropped count =>
    s!"dropped {count} positional argument(s); Strategy takes keyword arguments only"
  | .tickerReplaced (some fault) default => fault.message ++ s!"; using default '{default}'"
  | .tickerReplaced none default => s!"missing ticker; using default '{default}'"
  | .refused _ fault fallback => fault.message ++ "; " ++ fallback.message
  | .missing field fallback => s!"missing {field.key}; " ++ fallback.message
  | .unknownDropped keys => "removed unrecognized parameters: " ++ ", ".intercalate keys
  | .datesReplaced start finish replacement =>
    s!"start_date {start.text} is not before end_date {finish.text}; " ++
      match replacement with
      | some (s, e) => s!"using defaults {s.text} to {e.text}"
      | none => "default dates are unusable; both dates removed"

end Repair

/-- Why a text is no strategy at all. -/
inductive Rejection where
  /-- It is not an expression. -/
  | unreadable (error : ParseError)
  /-- It shows a name that is denied. -/
  | disallowed (name : String)
  /-- It is not the call of a strategy. -/
  | notStrategy (e : Expr)
  /-- A condition is not one. -/
  | invalid (side : Field) (fault : Fault)
  /-- A condition is not given. -/
  | missing (side : Field)

namespace Rejection

/-- The key of a rejection. -/
def key : Rejection → String
  | .unreadable _ | .disallowed _ | .notStrategy _ => "strategy"
  | .invalid side _ => side.key
  | .missing side => side.key

/-- What is said about a rejection. -/
def message : Rejection → String
  | .unreadable error => "could not parse strategy: " ++ error.text
  | .disallowed name => s!"disallowed construct '{name}'"
  | .notStrategy e => s!"expected a Strategy(...) call, got {e.describe}"
  | .invalid side fault => s!"invalid {side.key}: " ++ fault.message
  | .missing side => s!"missing {side.key}"

end Rejection

end TradeSignals
