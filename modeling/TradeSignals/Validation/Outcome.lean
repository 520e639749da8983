import TradeSignals.Expr.Parser
import TradeSignals.Validation.Changelog
import TradeSignals.Validation.DeniedName
import TradeSignals.Validation.Reading
import TradeSignals.Validation.Repair

/-!
# Validation of strategies

A text is read as an expression, searched for denied names and then read as a
strategy. The two conditions have to be there; whatever else is missing or cannot be
used gives way to a default, and the change is recorded. What comes out is the
strategy, its canonical text, and the record of all that was changed on the way.

The parameters are checked in the order in which they are written, and each comes to a
value or to a fault. From then on their order does not matter: every part of the
strategy is looked up by its parameter.
-/

namespace TradeSignals

/-- The check of a strategy: repairs, and a strategy or a rejection. -/
abbrev StrategyCheck (α : Type) := Verdict Repair Rejection α

namespace Strategy

/-- What the parameters of a strategy came to, each a value or a fault. -/
abbrev Settings := List (Field × Except Fault Value)

/-- The value of a parameter, if it is given and has one. -/
def given? (settings : Settings) (field : Field) : Option Value :=
  match settings.lookup field with
  | some (.ok value) => some value
  | _ => none

/-- Was a parameter given, but without a usable value? -/
def wasRefused (settings : Settings) (field : Field) : Bool :=
  match settings.lookup field with
  | some (.error _) => true
  | _ => false

/-- The first keyword argument with a key. -/
def keyword? (keywords : List (String × Expr)) (field : Field) : Option Expr :=
  (keywords.find? fun k => k.1 == field.key).map (·.2)

/-- The ticker of a strategy. -/
def checkTicker (defaults : Defaults) (keywords : List (String × Expr)) :
    StrategyCheck String :=
  match (keyword? keywords .ticker).map Plain.ticker with
  | some (.ok ticker) => pure ticker
  | some (.error fault) => do
    .note (.tickerReplaced (some fault) defaults.ticker)
    pure defaults.ticker
  | none => do
    .note (.tickerReplaced none defaults.ticker)
    pure defaults.ticker

/-- Is a parameter one of the two conditions? -/
def isCondition (field : Field) : Bool :=
  field = .buyCondition || field = .sellCondition

/-- What one parameter comes to. A condition that is none ends the check; any other
fault is noted together with what takes the place of the parameter. -/
def checkField (cx : Context) (defaults : Defaults) (field : Field) (e : Expr) :
    StrategyCheck (Except Fault Value) := do
  let check := (Reading.of cx e).parameter cx (some .strategy) field.slot
  match ← (check.translate (.inside field) id).attempt.translate id (.invalid field) with
  | .ok value => pure (.ok value)
  | .error fault =>
    if isCondition field then .fail (.invalid field fault)
    else do
      .note (.refused field fault (.of defaults cx.today field))
      pure (.error fault)

/-- What the parameters come to, in the order in which they are written. The ticker has
been dealt with before, and what is no parameter is passed over. -/
def checkFields (cx : Context) (defaults : Defaults) :
    List (String × Expr) → StrategyCheck Settings
  | [] => pure []
  | (key, e) :: rest =>
    match Field.ofKey? key with
    | none | some .ticker => checkFields cx defaults rest
    | some field => do
      let setting ← checkField cx defaults field e
      return (field, setting) :: (← checkFields cx defaults rest)

/-- The keys that name no parameter. -/
def unknownKeys (keywords : List (String × Expr)) : List String :=
  (keywords.map (·.1)).filter fun key => (Field.ofKey? key).isNone

/-- A note for the keys that name no parameter, if there are any. -/
def noteUnknown (keywords : List (String × Expr)) : StrategyCheck Unit :=
  match unknownKeys keywords with
  | [] => pure ()
  | keys => .note (.unknownDropped keys)

/-- One of the two conditions, which has to be there. -/
def requireCondition (settings : Settings) (side : Field) : StrategyCheck Condition :=
  match given? settings side with
  | some (.condition c) => pure c
  | _ => .fail (.missing side)

/-- A note for a parameter that is missing and has a default. -/
def noteMissing (cx : Context) (defaults : Defaults) (settings : Settings) (field : Field) :
    StrategyCheck Unit :=
  if (settings.lookup field).isNone then .note (.missing field (.of defaults cx.today field))
  else pure ()

/-- A date of a strategy: the one that is given, or the default in place of one that was
refused. -/
def dateOf (cx : Context) (settings : Settings) (field : Field) (default : Date) : Option Date :=
  match given? settings field with
  | some (.date d) => some d
  | _ => if wasRefused settings field then Defaults.usable? cx.today default else none

/-- The default dates, if both are past and in order. -/
def usableRange? (cx : Context) (defaults : Defaults) : Option (Date × Date) := do
  let start ← Defaults.usable? cx.today defaults.startDate
  let finish ← Defaults.usable? cx.today defaults.endDate
  if start < finish then some (start, finish) else none

/-- The two dates of a strategy. If both are there, the first is to come before the
second; otherwise the defaults take their place, or no dates at all. -/
def checkDates (cx : Context) (defaults : Defaults) (start finish : Option Date) :
    StrategyCheck (Option Date × Option Date) :=
  match start, finish with
  | some s, some e =>
    if s < e then pure (some s, some e)
    else do
      let replacement := usableRange? cx defaults
      .note (.datesReplaced s e replacement)
      pure (replacement.map (·.1), replacement.map (·.2))
  | _, _ => pure (start, finish)

/-- The sides of the market that were given, or the default. -/
def positionTypeOf (defaults : Defaults) (settings : Settings) : PositionType :=
  match given? settings .positionType with
  | some (.positionType value) => value
  | _ => defaults.positionType

/-- The interval that was given, or the default. -/
def intervalOf (defaults : Defaults) (settings : Settings) : Interval :=
  match given? settings .interval with
  | some (.interval value) => value
  | _ => defaults.interval

/-- The capital that was given, or the default. -/
def initialCapitalOf (defaults : Defaults) (settings : Settings) : Float :=
  match given? settings .initialCapital with
  | some (.float value) => value
  | _ => defaults.initialCapital

/-- The order size that was given, or the default. -/
def orderSizeOf (defaults : Defaults) (settings : Settings) : OrderSize :=
  match given? settings .orderSize with
  | some (.orderSize value) => value
  | _ => defaults.orderSize

/-- The stop loss that was given, if any. -/
def stopLossOf (settings : Settings) : Option (StopLoss Float) :=
  match given? settings .stopLoss with
  | some (.stopLoss value) => value
  | _ => none

/-- The take profit that was given, if any. -/
def takeProfitOf (settings : Settings) : Option (TakeProfit Float) :=
  match given? settings .takeProfit with
  | some (.takeProfit value) => value
  | _ => none

/-- The period that was given, if any. -/
def periodOf (settings : Settings) : Option Period :=
  match given? settings .period with
  | some (.period value) => some value
  | _ => none

/-- The commission that was given, if any. -/
def tradeCommissionsOf (settings : Settings) : Option Commission :=
  match given? settings .tradeCommissions with
  | some (.commission value) => value
  | _ => none

/-- The parameters that have a default and are noted where they are missing. -/
def defaulted : List Field := [.positionType, .interval, .initialCapital, .orderSize]

/-- The strategy that settings come to, once it is known what is missing. -/
def ofSettings (cx : Context) (defaults : Defaults) (settings : Settings) :
    StrategyCheck Strategy := do
  let buyCondition ← requireCondition settings .buyCondition
  let sellCondition ← requireCondition settings .sellCondition
  defaulted.forM (noteMissing cx defaults settings)
  let dates ← checkDates cx defaults (dateOf cx settings .startDate defaults.startDate)
    (dateOf cx settings .endDate defaults.endDate)
  pure {
    ticker := cx.ticker
    positionType := positionTypeOf defaults settings
    buyCondition := buyCondition
    sellCondition := sellCondition
    startDate := dates.1
    endDate := dates.2
    stopLoss := stopLossOf settings
    takeProfit := takeProfitOf settings
    interval := intervalOf defaults settings
    period := periodOf settings
    initialCapital := initialCapitalOf defaults settings
    orderSize := orderSizeOf defaults settings
    tradeCommissions := tradeCommissionsOf settings }

/-- The check of the arguments of a strategy. -/
def checkArguments (defaults : Defaults) (today : Date) (args : List Expr)
    (keywords : List (String × Expr)) : StrategyCheck Strategy := do
  unless args.isEmpty do .note (.positionalDropped args.length)
  let ticker ← checkTicker defaults keywords
  let cx : Context := ⟨ticker, today⟩
  let settings ← checkFields cx defaults keywords
  noteUnknown keywords
  ofSettings cx defaults settings

/-- The check of an expression that is to be a strategy. -/
def checkExpr (defaults : Defaults) (today : Date) (root : Expr) : StrategyCheck Strategy :=
  match DeniedName.find? root with
  | some name => .fail (.disallowed name)
  | none =>
    match root with
    | .call callee args keywords =>
      if callee = Constructor.strategy.name then checkArguments defaults today args keywords
      else .fail (.notStrategy root)
    | _ => .fail (.notStrategy root)

/-- **The check of a text** that is to be a strategy. -/
def check (source : String) (defaults : Defaults) (today : Date) : StrategyCheck Strategy :=
  match Expr.parse source with
  | .error error => .fail (.unreadable error)
  | .ok root => checkExpr defaults today root

end Strategy

/-- What the validation of a text came to. -/
structure Outcome where
  /-- What was changed, and at the end why it was all in vain, if it was. -/
  changes : Changelog
  /-- The strategy, if there is one. -/
  strategy : Option Strategy

namespace Outcome

/-- Is there a strategy? -/
def ok (o : Outcome) : Bool := o.strategy.isSome

/-- The canonical text of the strategy; empty if there is none. -/
def sanitized (o : Outcome) : String := (o.strategy.map Strategy.text).getD ""

/-- The outcome of a check: its repairs are recorded, and then its rejection. -/
def ofCheck (v : StrategyCheck Strategy) : Outcome :=
  let repaired := Changelog.ofMessages (v.notes.map fun r => (r.key, r.message))
  match v.result with
  | .ok strategy => ⟨repaired, some strategy⟩
  | .error rejection => ⟨repaired.record rejection.key rejection.message, none⟩

end Outcome

/-- **Validates a text** as a strategy, with defaults for what it leaves out, on the day
`today`. -/
def validate (source : String) (defaults : Defaults) (today : Date) : Outcome :=
  .ofCheck (Strategy.check source defaults today)

end TradeSignals
