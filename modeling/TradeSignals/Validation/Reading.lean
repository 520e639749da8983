import TradeSignals.Validation.Binding
import TradeSignals.Validation.Value
import TradeSignals.Validation.Verdict

/-!
# Reading calls

What the calls of an expression build: conditions, series and settings. An expression
is read from the leaves up. The *reading* of a part holds what the part comes to as
each of the things that a call can build; the reading of a call is made from the
readings of its arguments, and a parameter picks what it asks for.

Conditions and series are repaired where that leaves no doubt about what is meant:
arguments that go nowhere are ignored, a bad ticker gives way to that of the strategy,
and a bad condition of a junction is left out. Each repair is noted. Settings are
taken as they stand or not at all.
-/

namespace TradeSignals

/-- What parts of a strategy are read against. -/
structure Context where
  /-- The ticker of the strategy, for series that give none. -/
  ticker : String
  /-- The day of validation; dates after it are refused. -/
  today : Date

/-- The check of a part: notes about it, and what it comes to. -/
abbrev Check (α : Type) := Verdict Note Fault α

/-- What an expression comes to as each of the things that a call can build. -/
structure Reading where
  /-- The expression itself. -/
  expr : Expr
  /-- As a condition. -/
  condition : Check Condition
  /-- As a series. -/
  series : Check Series
  /-- As an order size. -/
  orderSize : Check OrderSize
  /-- As a commission or none. -/
  commission : Check (Option Commission)
  /-- As a stop loss or none. -/
  stopLoss : Check (Option (StopLoss Float))
  /-- As a take profit or none. -/
  takeProfit : Check (Option (TakeProfit Float))

namespace Reading

/-- What a parameter with a tag makes of an argument. -/
def value (cx : Context) (tag : Tag) (r : Reading) : Check Value :=
  match tag with
  | .int => .ofResult (Value.int <$> Plain.int r.expr)
  | .float => .ofResult (Value.float <$> Plain.float r.expr)
  | .bool => .ofResult (Value.bool <$> Plain.bool r.expr)
  | .ticker => .ofResult (Value.ticker <$> Plain.ticker r.expr)
  | .date => .ofResult (Value.date <$> Plain.date cx.today r.expr)
  | .choice kind => .ofResult (Plain.choiceValue kind r.expr)
  | .condition => Value.condition <$> r.condition
  | .series => Value.series <$> r.series
  | .retracement => .ofResult (Value.retracement <$> Plain.retracement r.expr)
  | .orderSize => Value.orderSize <$> r.orderSize
  | .commission => Value.commission <$> r.commission
  | .stopLoss => Value.stopLoss <$> r.stopLoss
  | .takeProfit => Value.takeProfit <$> r.takeProfit

/-- **The value of a parameter:** what its tag makes of the argument, if that is in
range for the parameter of this owner. -/
def parameter (cx : Context) (owner : Option Constructor) (slot : Slot) (r : Reading) :
    Check Value := do
  let value ← r.value cx slot.tag
  match value.outOfRange? owner slot.name with
  | some fault => .fail fault
  | none => pure value

/-! ### Arguments of conditions and series -/

/-- The values of arguments that have one; the others are noted. -/
def usableValues (cx : Context) (c : Constructor) : List (Slot × Reading) → Check Values
  | [] => pure []
  | (slot, r) :: rest => do
    match ← (r.parameter cx (some c) slot).attempt with
    | .ok value => return (slot.name, value) :: (← usableValues cx c rest)
    | .error fault =>
      .note ⟨c, .refused slot.name fault⟩
      usableValues cx c rest

/-- The values of the arguments of a call. Arguments that go nowhere are noted. -/
def callValues (cx : Context) (c : Constructor) (args : List Reading)
    (keywords : List (String × Reading)) : Check Values := do
  let binding := Binding.ofCall c args keywords
  .noteAll (binding.problems.map fun p => ⟨c, .binding (p.map (·.expr))⟩)
  usableValues cx c binding.bound

/-- The parameters without a value. -/
def withoutValue (c : Constructor) (vs : Values) : List String :=
  (c.slots.map (·.name)).filter fun parameter => (vs.lookup parameter).isNone

/-- What was built from values, if all of them were there. -/
def built {α : Type} (c : Constructor) (vs : Values) (result : Option α) : Check α :=
  match result with
  | some a => pure a
  | none => .fail (.unusable c (withoutValue c vs))

/-- The constructor with a name, which is to build something of a category. -/
def resolve (wanted : Category) (name : String) : Check Constructor :=
  match Constructor.ofName? name with
  | some c =>
    if c.category = wanted then pure c else .fail (.otherCategory name c.category wanted)
  | none => .fail (.unknownConstructor name wanted)

/-! ### Conditions -/

/-- The comparison of two series. -/
def comparison? (relation : Relation) (vs : Values) : Option Condition :=
  return .comparison relation (← vs.series? "first_series") (← vs.series? "second_series")

/-- The trend of a series. -/
def trend? (direction : Direction) (vs : Values) : Option Condition :=
  return .trend direction (← vs.series? "series") (← vs.length? "number_of_days")

/-- The condition that a constructor with a fixed number of parameters builds. -/
def condition? (c : Constructor) (vs : Values) : Option Condition :=
  match c with
  | .greaterThan => comparison? .above vs
  | .lessThan => comparison? .below vs
  | .crossOver => comparison? .crossedAbove vs
  | .crossUnder => comparison? .crossedBelow vs
  | .afterDays => return .after (← vs.condition? "base_condition") (← vs.length? "days")
  | .changePerDays =>
    return .changeOver (← vs.series? "series") (← vs.float? "percent")
      (← vs.length? "number_of_days")
  | .changePerBar => return .change (← vs.series? "series") (← vs.float? "percent")
  | .uptrend => trend? .up vs
  | .downtrend => trend? .down vs
  | _ => none

/-- The conditions of a junction that can be read; the others are noted. The `index`
counts the conditions before them. -/
def usableConditions (c : Constructor) (index : Nat) : List Reading → Check (List Condition)
  | [] => pure []
  | r :: rest => do
    match ← r.condition.attempt with
    | .ok condition => return condition :: (← usableConditions c (index + 1) rest)
    | .error fault =>
      .note ⟨c, .dropped index fault⟩
      usableConditions c (index + 1) rest

/-- A junction of conditions. -/
def junction (c : Constructor) (args : List Reading) (keywords : List (String × Reading)) :
    Check Condition := do
  .noteAll (keywords.map fun k => ⟨c, .ignoredKeyword k.1⟩)
  match ← usableConditions c 0 args with
  | [] => .fail (.noConditions c)
  | conditions => pure (if c = .and then .all conditions else .any conditions)

/-- A call as a condition. -/
def conditionOfCall (cx : Context) (callee : String) (args : List Reading)
    (keywords : List (String × Reading)) : Check Condition := do
  let c ← resolve .condition callee
  if c.variadic then junction c args keywords
  else
    let vs ← callValues cx c args keywords
    built c vs (condition? c vs)

/-! ### Series -/

/-- A study of a trailing window. -/
def windowed? (study : Study) (ticker : String) (vs : Values) : Option Series :=
  return .windowed study ticker (← vs.length? "length")

/-- A band beside the average. -/
def band? (side : BandSide) (ticker : String) (vs : Values) : Option Series :=
  return .band side ticker (← vs.length? "length") (← vs.float? "std_dev")

/-- The series that a constructor builds from the bars of a ticker. -/
def series? (c : Constructor) (ticker : String) (vs : Values) : Option Series :=
  match c with
  | .price => return .price ticker (← vs.priceField? "price_type")
  | .sma => windowed? .sma ticker vs
  | .ema => windowed? .ema ticker vs
  | .wma => windowed? .wma ticker vs
  | .rsi => windowed? .rsi ticker vs
  | .roc => windowed? .roc ticker vs
  | .stddev => windowed? .stddev ticker vs
  | .atr => windowed? .atr ticker vs
  | .obv => some (.obv ticker)
  | .macd => return .macd ticker (← vs.length? "fast_length") (← vs.length? "slow_length")
  | .macdSignal =>
    return .macdSignal ticker (← vs.length? "fast_length") (← vs.length? "slow_length")
      (← vs.length? "signal_length")
  | .upperBand => band? .upper ticker vs
  | .lowerBand => band? .lower ticker vs
  | .retracement =>
    return .retracement ticker (← vs.retracement? "level") (← vs.length? "length")
  | _ => none

/-- Is a keyword that of the ticker? -/
def isTickerKey {α : Type} (argument : String × α) : Bool := argument.1 == "ticker"

/-- The arguments that give the ticker of a series: its first positional argument, then
every keyword argument of that name. The first one counts. -/
def tickerArguments (args : List Reading) (keywords : List (String × Reading)) : List Reading :=
  args.take 1 ++ (keywords.filter isTickerKey).map (·.2)

/-- The ticker of a series. -/
def seriesTicker (cx : Context) (c : Constructor) (given : List Reading) : Check String := do
  .noteAll (given.tail.map fun _ => ⟨c, .secondTicker⟩)
  match given with
  | [] => pure cx.ticker
  | r :: _ =>
    match Plain.ticker r.expr with
    | .ok ticker => pure ticker
    | .error fault =>
      .note ⟨c, .replacedTicker fault cx.ticker⟩
      pure cx.ticker

/-- A call as a series. -/
def seriesOfCall (cx : Context) (callee : String) (args : List Reading)
    (keywords : List (String × Reading)) : Check Series := do
  let c ← resolve .series callee
  if c.takesTicker then
    let ticker ← seriesTicker cx c (tickerArguments args keywords)
    let vs ← callValues cx c (args.drop 1) (keywords.filter fun k => !isTickerKey k)
    built c vs (series? c ticker vs)
  else
    let vs ← callValues cx c args keywords
    built c vs ((vs.int? "value").map .constant)

/-! ### Settings -/

/-- The values of all arguments of a setting; the first fault ends it. -/
def allValues (cx : Context) (c : Constructor) : List (Slot × Reading) → Check Values
  | [] => pure []
  | (slot, r) :: rest => do
    let value ← (r.parameter cx (some c) slot).translate id (.within c slot.name)
    return (slot.name, value) :: (← allValues cx c rest)

/-- A call as a setting of a category: every argument has to go somewhere and every
parameter has to be given. -/
def settingOfCall {α : Type} (cx : Context) (category : Category)
    (build? : Constructor → Values → Option α) (callee : String) (args : List Reading)
    (keywords : List (String × Reading)) : Check α :=
  match Constructor.ofNameIn? category callee with
  | none => .fail (.notSetting callee category)
  | some c =>
    let binding := Binding.ofCall c args keywords
    match binding.problems with
    | problem :: _ => .fail (.binding (problem.map (·.expr)))
    | [] =>
      if binding.missing c ≠ [] then .fail (.missing c (binding.missing c))
      else do
        let vs ← allValues cx c binding.bound
        match build? c vs with
        | some a => pure a
        | none => .fail (.missing c (withoutValue c vs))

/-- An order size. -/
def orderSize? (c : Constructor) (vs : Values) : Option OrderSize :=
  match c with
  | .contracts => (vs.int? "value").map .contracts
  | .usd => (vs.float? "value").map .usd
  | .percentOfPortfolio => (vs.float? "value").map .percentOfPortfolio
  | _ => none

/-- A commission. -/
def commission? (c : Constructor) (vs : Values) : Option (Option Commission) :=
  match c with
  | .fixedCommission => (vs.float? "value").map fun x => some (.fixed x)
  | .percentCommission => (vs.float? "value").map fun x => some (.percent x)
  | _ => none

/-- A stop loss. -/
def stopLoss? (_ : Constructor) (vs : Values) : Option (Option (StopLoss Float)) :=
  return some ⟨← vs.stopKind? "stop_loss_type", ← vs.float? "percent"⟩

/-- A take profit. -/
def takeProfit? (_ : Constructor) (vs : Values) : Option (Option (TakeProfit Float)) :=
  return some ⟨← vs.float? "percent"⟩

/-! ### Expressions -/

/-- The reading of a call, from the readings of its arguments. -/
def ofCall (cx : Context) (expr : Expr) (callee : String) (args : List Reading)
    (keywords : List (String × Reading)) : Reading where
  expr := expr
  condition := conditionOfCall cx callee args keywords
  series := seriesOfCall cx callee args keywords
  orderSize := settingOfCall cx .orderSize orderSize? callee args keywords
  commission := settingOfCall cx .commission commission? callee args keywords
  stopLoss := settingOfCall cx .stopLoss stopLoss? callee args keywords
  takeProfit := settingOfCall cx .takeProfit takeProfit? callee args keywords

/-- A setting that is absent if `None` stands for it. -/
def absentOr {α : Type} (category : Category) (e : Expr) : Check (Option α) :=
  if e = .literal .none then pure none else .fail (.expected (.setting category) e)

/-- The reading of an expression that is not a call. -/
def ofOther (e : Expr) : Reading where
  expr := e
  condition := .fail (.expected (.term .condition) e)
  series := .fail (.expected (.term .series) e)
  orderSize := .fail (.expected (.setting .orderSize) e)
  commission := absentOr .commission e
  stopLoss := absentOr .stopLoss e
  takeProfit := absentOr .takeProfit e

mutual

/-- **The reading of an expression.** -/
def of (cx : Context) : Expr → Reading
  | .call callee args keywords =>
    ofCall cx (.call callee args keywords) callee (ofAll cx args) (ofKeywords cx keywords)
  | e => ofOther e

/-- The readings of positional arguments. -/
def ofAll (cx : Context) : List Expr → List Reading
  | [] => []
  | e :: rest => of cx e :: ofAll cx rest

/-- The readings of keyword arguments. -/
def ofKeywords (cx : Context) : List (String × Expr) → List (String × Reading)
  | [] => []
  | (key, e) :: rest => (key, of cx e) :: ofKeywords cx rest

end

/-- Positional arguments are read one by one. -/
theorem ofAll_eq (cx : Context) (es : List Expr) : ofAll cx es = es.map (of cx) := by
  induction es with
  | nil => rfl
  | cons e rest ih => simp [ofAll, ih]

/-- Keyword arguments are read one by one. -/
theorem ofKeywords_eq (cx : Context) (kes : List (String × Expr)) :
    ofKeywords cx kes = kes.map fun ke => (ke.1, of cx ke.2) := by
  induction kes with
  | nil => rfl
  | cons ke rest ih => simp [ofKeywords, ih]

/-- A reading knows its expression. -/
@[simp] theorem expr_of (cx : Context) (e : Expr) : (of cx e).expr = e := by
  cases e <;> simp [of, ofCall, ofOther]

/-- The reading of a call. -/
theorem of_call (cx : Context) (callee : String) (args : List Expr)
    (keywords : List (String × Expr)) : of cx (.call callee args keywords) =
      ofCall cx (.call callee args keywords) callee (args.map (of cx))
        (keywords.map fun ke => (ke.1, of cx ke.2)) := by
  rw [of, ofAll_eq, ofKeywords_eq]

end Reading

/-- An expression as a condition. -/
def Condition.check (cx : Context) (e : Expr) : Check Condition := (Reading.of cx e).condition

/-- An expression as a series. -/
def Series.check (cx : Context) (e : Expr) : Check Series := (Reading.of cx e).series

end TradeSignals
