import TradeSignals.Strategy.Basic
import TradeSignals.Validation.Fault
import TradeSignals.Validation.Ticker

/-!
# Values of parameters

What a parameter of a call comes to once it has been checked, and the parameters that
are read from a single literal or member. An integer is admitted where a number is
asked for and becomes one, a ratio is admitted where a retracement level is asked for,
and nothing else changes its form.
-/

namespace TradeSignals

/-- What a parameter comes to. -/
inductive Value where
  /-- An integer. -/
  | int (value : Int64)
  /-- A number. -/
  | float (value : Float)
  /-- A truth value. -/
  | bool (value : Bool)
  /-- A ticker. -/
  | ticker (value : String)
  /-- A date. -/
  | date (value : Date)
  /-- Sides of the market. -/
  | positionType (value : PositionType)
  /-- How much time a bar covers. -/
  | interval (value : Interval)
  /-- How far to look back. -/
  | period (value : Period)
  /-- A number of a bar. -/
  | priceField (value : PriceField)
  /-- What a stop loss measures from. -/
  | stopKind (value : StopKind)
  /-- A condition. -/
  | condition (value : Condition)
  /-- A series. -/
  | series (value : Series)
  /-- A retracement level. -/
  | retracement (value : Retracement)
  /-- How much to trade. -/
  | orderSize (value : OrderSize)
  /-- What a trade costs, if anything. -/
  | commission (value : Option Commission)
  /-- When to cut a loss, if ever. -/
  | stopLoss (value : Option (StopLoss Float))
  /-- When to take a profit, if ever. -/
  | takeProfit (value : Option (TakeProfit Float))

/-! ### Parameters that are a literal or a member -/

namespace Plain

/-- An integer. -/
def int : Expr → Except Fault Int64
  | .literal (.int value) => .ok value
  | e => .error (.expected .int e)

/-- A finite number. -/
def finite (value : Float) : Except Fault Float :=
  if value.isFinite then .ok value else .error (.notFinite value)

/-- A number, which may be written as an integer. -/
def float : Expr → Except Fault Float
  | .literal (.float value) => finite value
  | .literal (.int value) => finite (Float.ofInt value.toInt)
  | e => .error (.expected .float e)

/-- A truth value. -/
def bool : Expr → Except Fault Bool
  | .literal (.bool value) => .ok value
  | e => .error (.expected .bool e)

/-- A ticker. -/
def ticker : Expr → Except Fault String
  | .literal (.text text) =>
    if Ticker.isValid text then .ok text else .error (.invalidTicker text)
  | e => .error (.expected .ticker e)

/-- A date in a text. -/
def dateOf (text : String) : Except Fault Date :=
  (Date.read text).mapError fun _ => .malformedDate text

/-- A date that is not after today. -/
def date (today : Date) : Expr → Except Fault Date
  | .literal (.text text) => do
    let d ← dateOf text
    if today < d then .error (.futureDate d) else .ok d
  | e => .error (.expected .date e)

/-- A member of a set. -/
def choice {α : Type} [Choice α] (kind : ChoiceKind) : Expr → Except Fault α
  | .member k item =>
    if k = kind.name then
      match Choice.ofLabel? item with
      | some a => .ok a
      | none => .error (.notMember item kind.name)
    else .error (.expected (.choice kind) (.member k item))
  | e => .error (.expected (.choice kind) e)

/-- The level near a finite ratio. -/
def retracementOf (value : Float) : Except Fault Retracement := do
  let ratio ← finite value
  match Retracement.ofRatio? ratio with
  | some level => .ok level
  | none => .error (.notRatio ratio)

/-- A retracement level, which may be written as its ratio. -/
def retracement : Expr → Except Fault Retracement
  | .member k item =>
    if k = Retracement.kindName then
      match Choice.ofLabel? item with
      | some level => .ok level
      | none => .error (.notMember item Retracement.kindName)
    else .error (.expected .retracement (.member k item))
  | .literal (.float value) => retracementOf value
  | .literal (.int value) => retracementOf (Float.ofInt value.toInt)
  | e => .error (.expected .retracement e)

/-- A member of one of the sets as a value. -/
def choiceValue (kind : ChoiceKind) (e : Expr) : Except Fault Value :=
  match kind with
  | .positionType => Value.positionType <$> choice kind e
  | .interval => Value.interval <$> choice kind e
  | .period => Value.period <$> choice kind e
  | .priceField => Value.priceField <$> choice kind e
  | .stopKind => Value.stopKind <$> choice kind e

end Plain

/-! ### Ranges -/

/-- Is a number outside a limit? The missing number is outside of none. -/
def Limit.excludes (limit : Limit) (value : Float) : Bool :=
  match limit with
  | .aboveZero => value ≤ 0
  | .atMostHundred => value > 100
  | .notNegative => value < 0

/-- The limits of a parameter of a constructor, in the order in which they are looked
at. -/
def Limit.of (owner : Option Constructor) (parameter : String) : List Limit :=
  match owner, parameter with
  | some .stopLoss, "percent" | some .percentOfPortfolio, "value" => [.aboveZero, .atMostHundred]
  | some .takeProfit, "percent" | some .usd, "value" | some .strategy, "initial_capital"
  | some .upperBand, "std_dev" | some .lowerBand, "std_dev" => [.aboveZero]
  | some .fixedCommission, "value" | some .percentCommission, "value" => [.notNegative]
  | _, _ => []

/-- The fault of a value that is out of range for a parameter. Integers are lengths and
counts and are at least one, but for the value of the constant series. -/
def Value.outOfRange? (owner : Option Constructor) (parameter : String) : Value → Option Fault
  | .int value =>
    if owner ≠ some .const ∧ value < 1 then some (.belowOne parameter value) else none
  | .float value =>
    ((Limit.of owner parameter).find? (·.excludes value)).map (.outside parameter · value)
  | _ => none

/-! ### Values by name -/

/-- Values of parameters with the names of the parameters. -/
abbrev Values := List (String × Value)

namespace Values

/-- The integer that a parameter came to. -/
def int? (vs : Values) (parameter : String) : Option Int64 :=
  match vs.lookup parameter with
  | some (.int value) => some value
  | _ => none

/-- The length that a parameter came to. -/
def length? (vs : Values) (parameter : String) : Option UInt64 :=
  (vs.int? parameter).map Int64.toUInt64

/-- The number that a parameter came to. -/
def float? (vs : Values) (parameter : String) : Option Float :=
  match vs.lookup parameter with
  | some (.float value) => some value
  | _ => none

/-- The number of a bar that a parameter came to. -/
def priceField? (vs : Values) (parameter : String) : Option PriceField :=
  match vs.lookup parameter with
  | some (.priceField value) => some value
  | _ => none

/-- The kind of stop loss that a parameter came to. -/
def stopKind? (vs : Values) (parameter : String) : Option StopKind :=
  match vs.lookup parameter with
  | some (.stopKind value) => some value
  | _ => none

/-- The level that a parameter came to. -/
def retracement? (vs : Values) (parameter : String) : Option Retracement :=
  match vs.lookup parameter with
  | some (.retracement value) => some value
  | _ => none

/-- The series that a parameter came to. -/
def series? (vs : Values) (parameter : String) : Option Series :=
  match vs.lookup parameter with
  | some (.series value) => some value
  | _ => none

/-- The condition that a parameter came to. -/
def condition? (vs : Values) (parameter : String) : Option Condition :=
  match vs.lookup parameter with
  | some (.condition value) => some value
  | _ => none

end Values

end TradeSignals
