import TradeSignals.Calendar.DateText
import TradeSignals.Expr.Printer
import TradeSignals.Vocabulary.Constructor

/-!
# Faults and remarks

What can be wrong with a part of a strategy, as causes; the wording is in one place.
A fault is a reason to refuse a part. A remark is what is noted about a part that is
kept, or about a fault that costs only the parameter it is in.
-/

namespace TradeSignals

/-- What should stand in a place. -/
inductive Wanted where
  /-- An integer. -/
  | int
  /-- A number. -/
  | float
  /-- A truth value. -/
  | bool
  /-- A ticker. -/
  | ticker
  /-- A date. -/
  | date
  /-- A member of a set. -/
  | choice (kind : ChoiceKind)
  /-- A retracement level. -/
  | retracement
  /-- A call that builds a setting. -/
  | setting (category : Category)
  /-- A call that builds a condition or a series. -/
  | term (category : Category)

/-- What should stand in a place, in words. -/
def Wanted.text : Wanted → String
  | .int => "Int"
  | .float => "Float"
  | .bool => "Bool"
  | .ticker => "Ticker string"
  | .date => "Date string"
  | .choice kind => kind.name
  | .retracement => Retracement.kindName
  | .setting category => category.name
  | .term category => s!"a {category.name} call"

/-- Why an argument of a call is not used. The arguments may be of any kind. -/
inductive BindingProblem (α : Type) where
  /-- There are fewer parameters than positional arguments. -/
  | surplus (index : Nat) (argument : α)
  /-- The parameter has a value already. -/
  | repeated (key : String)
  /-- There is no such parameter. -/
  | unknown (key : String) (constructor : Constructor)

namespace BindingProblem

/-- The place in the call that a problem is about. -/
def place {α : Type} : BindingProblem α → String
  | .surplus index _ => s!"args[{index}]"
  | .repeated key => key
  | .unknown key _ => key

/-- What is said about a problem, where `describe` names an argument. -/
def message {α : Type} (describe : α → String) : BindingProblem α → String
  | .surplus _ argument => s!"surplus positional argument {describe argument} ignored"
  | .repeated key => s!"'{key}' bound twice; keeping the first value"
  | .unknown key c => s!"unknown parameter '{key}' for {c.name} ignored"

/-- A problem with its argument seen in another way. -/
def map {α β : Type} (f : α → β) : BindingProblem α → BindingProblem β
  | .surplus index argument => .surplus index (f argument)
  | .repeated key => .repeated key
  | .unknown key c => .unknown key c

end BindingProblem

/-- Limits that a number can be outside of. -/
inductive Limit where
  /-- It must be positive. -/
  | aboveZero
  /-- It must be a hundred at most. -/
  | atMostHundred
  /-- It must not be negative. -/
  | notNegative
deriving DecidableEq

/-- A limit in words. -/
def Limit.text : Limit → String
  | .aboveZero => "> 0"
  | .atMostHundred => "<= 100"
  | .notNegative => ">= 0"

/-- Why a part of a strategy is refused. -/
inductive Fault where
  /-- Something of another form stands there. -/
  | expected (wanted : Wanted) (got : Expr)
  /-- A number without digits. -/
  | notFinite (value : Float)
  /-- A text that is not a ticker. -/
  | invalidTicker (text : String)
  /-- A text that is not a date. -/
  | malformedDate (text : String)
  /-- A date after the day of validation. -/
  | futureDate (date : Date)
  /-- A name that is not in the set. -/
  | notMember (item kind : String)
  /-- A number that is near no retracement level. -/
  | notRatio (value : Float)
  /-- An integer below one. -/
  | belowOne (parameter : String) (got : Int64)
  /-- A number outside a limit. -/
  | outside (parameter : String) (limit : Limit) (got : Float)
  /-- A constructor that builds something else. -/
  | otherCategory (name : String) (is wanted : Category)
  /-- A name that is no constructor. -/
  | unknownConstructor (name : String) (wanted : Category)
  /-- A name that does not build the setting. -/
  | notSetting (name : String) (wanted : Category)
  /-- An argument of a setting that is not used. -/
  | binding (problem : BindingProblem Expr)
  /-- Parameters of a setting that are not given. -/
  | missing (constructor : Constructor) (parameters : List String)
  /-- Parameters of a condition or a series without a usable value. -/
  | unusable (constructor : Constructor) (parameters : List String)
  /-- A junction without a condition. -/
  | noConditions (constructor : Constructor)
  /-- A fault in a parameter of a setting. -/
  | within (constructor : Constructor) (parameter : String) (fault : Fault)

/-- What is said about a fault. -/
def Fault.message : Fault → String
  | .expected wanted got => s!"expected {wanted.text}, got {got.describe}"
  | .notFinite value => "expected a finite Float, got " ++ NumberLayout.plain.text value
  | .invalidTicker text => s!"invalid ticker '{text}'"
  | .malformedDate text => s!"malformed date '{text}', expected YYYY-MM-DD"
  | .futureDate date => s!"date {date.text} is in the future"
  | .notMember item kind => s!"'{item}' is not a member of {kind}"
  | .notRatio value => NumberLayout.plain.text value ++ " is not a Fibonacci retracement ratio"
  | .belowOne parameter got => s!"{parameter} must be >= 1, got {got}"
  | .outside parameter limit got =>
    s!"{parameter} must be {limit.text}, got " ++ NumberLayout.plain.text got
  | .otherCategory name is wanted =>
    s!"'{name}' is a {is.name} constructor, expected {wanted.name}"
  | .unknownConstructor name wanted => s!"unknown {wanted.name} constructor '{name}'"
  | .notSetting name wanted => s!"'{name}' is not a {wanted.name} constructor"
  | .binding problem => problem.message Expr.describe
  | .missing c parameters => s!"{c.name} missing parameters: " ++ ", ".intercalate parameters
  | .unusable c parameters =>
    s!"{c.name} missing or invalid parameters: " ++ ", ".intercalate parameters
  | .noConditions c => s!"{c.name} has no valid conditions"
  | .within c parameter fault => s!"{c.name}.{parameter}: " ++ fault.message

/-- What is noted about a part of a condition or a series. -/
inductive Remark where
  /-- An argument is not used. -/
  | binding (problem : BindingProblem Expr)
  /-- A parameter has no usable value. -/
  | refused (parameter : String) (fault : Fault)
  /-- A junction takes no keyword arguments. -/
  | ignoredKeyword (key : String)
  /-- A condition of a junction is left out. -/
  | dropped (index : Nat) (fault : Fault)
  /-- The ticker is given twice. -/
  | secondTicker
  /-- The ticker is not one, and the strategy's own takes its place. -/
  | replacedTicker (fault : Fault) (ticker : String)

/-- A remark and the constructor it is made at. -/
structure Note where
  /-- The constructor of the call that the remark is about. -/
  constructor : Constructor
  /-- What is noted. -/
  remark : Remark

namespace Note

/-- The parameter that a note is about. -/
def parameter (n : Note) : String :=
  match n.remark with
  | .binding problem => problem.place
  | .refused parameter _ => parameter
  | .ignoredKeyword key => key
  | .dropped index _ => s!"conditions[{index}]"
  | .secondTicker => "ticker"
  | .replacedTicker _ _ => "ticker"

/-- What is said in a note. -/
def message (n : Note) : String :=
  match n.remark with
  | .binding problem => problem.message Expr.describe
  | .refused _ fault => fault.message
  | .ignoredKeyword key =>
    s!"keyword argument '{key}' ignored; {n.constructor.name} takes positional conditions"
  | .dropped _ fault => "dropped: " ++ fault.message
  | .secondTicker => "ticker bound twice; keeping the first value"
  | .replacedTicker fault ticker => fault.message ++ s!"; using strategy ticker '{ticker}'"

/-- The key of a note made about one side of a strategy. -/
def key (side : String) (n : Note) : String :=
  s!"{side}:{n.constructor.name}.{n.parameter}"

end Note

end TradeSignals
