import TradeSignals.Strategy.Series

/-!
# Conditions

A condition says of each bar whether it holds there. The leaves compare series with
each other or with their own past; conditions are joined and shifted in time.
-/

namespace TradeSignals

/-- How two series stand to each other. -/
inductive Relation where
  /-- The first is above the second. -/
  | above
  /-- The first is below the second. -/
  | below
  /-- The first was below the second and is now above it. -/
  | crossedAbove
  /-- The first was above the second and is now below it. -/
  | crossedBelow
deriving DecidableEq

/-- The constructor of a comparison. -/
def Relation.constructor : Relation → Constructor
  | .above => .greaterThan
  | .below => .lessThan
  | .crossedAbove => .crossOver
  | .crossedBelow => .crossUnder

/-- Which way a series has been going. -/
inductive Direction where
  /-- No step was downwards. -/
  | up
  /-- No step was upwards. -/
  | down
deriving DecidableEq

/-- The constructor of a trend. -/
def Direction.constructor : Direction → Constructor
  | .up => .uptrend
  | .down => .downtrend

/-- Conditions on bars. -/
inductive Condition where
  /-- One series compared with another. -/
  | comparison (relation : Relation) (first second : Series)
  /-- All of the conditions hold, and there is one. -/
  | all (conditions : List Condition)
  /-- One of the conditions holds. -/
  | any (conditions : List Condition)
  /-- The condition held so many bars ago. -/
  | after (base : Condition) (days : UInt64)
  /-- The series has changed by so many percent over so many bars. -/
  | changeOver (series : Series) (percent : Float) (days : UInt64)
  /-- The series has changed by so many percent from the bar before. -/
  | change (series : Series) (percent : Float)
  /-- The series has been going one way for so many bars. -/
  | trend (direction : Direction) (series : Series) (days : UInt64)

namespace Condition

/-- The constructor of a condition. -/
def constructor : Condition → Constructor
  | .comparison relation _ _ => relation.constructor
  | .all _ => .and
  | .any _ => .or
  | .after _ _ => .afterDays
  | .changeOver _ _ _ => .changePerDays
  | .change _ _ => .changePerBar
  | .trend direction _ _ => direction.constructor

/-- The name of a condition in strategy text. -/
def name (c : Condition) : String := c.constructor.name

mutual

/-- The series that a condition reads, in the order in which it reads them. -/
def series : Condition → List Series
  | .comparison _ first second => [first, second]
  | .all conditions | .any conditions => seriesOfAll conditions
  | .after base _ => base.series
  | .changeOver s _ _ | .change s _ | .trend _ s _ => [s]

/-- The series that several conditions read. -/
def seriesOfAll : List Condition → List Series
  | [] => []
  | c :: rest => c.series ++ seriesOfAll rest

end

mutual

/-- **A condition as an expression.** -/
def toExpr : Condition → Expr
  | .comparison relation first second =>
    .call relation.constructor.name []
      [("first_series", first.toExpr), ("second_series", second.toExpr)]
  | .all conditions => .call Constructor.and.name (toExprs conditions) []
  | .any conditions => .call Constructor.or.name (toExprs conditions) []
  | .after base days =>
    .call Constructor.afterDays.name []
      [("base_condition", base.toExpr), ("days", Series.lengthExpr days)]
  | .changeOver s percent days =>
    .call Constructor.changePerDays.name []
      [("series", s.toExpr), ("percent", .float percent),
        ("number_of_days", Series.lengthExpr days)]
  | .change s percent =>
    .call Constructor.changePerBar.name [] [("series", s.toExpr), ("percent", .float percent)]
  | .trend direction s days =>
    .call direction.constructor.name []
      [("series", s.toExpr), ("number_of_days", Series.lengthExpr days)]

/-- Several conditions as expressions. -/
def toExprs : List Condition → List Expr
  | [] => []
  | c :: rest => c.toExpr :: toExprs rest

end

/-- The canonical text of a condition. -/
def text (c : Condition) : String := c.toExpr.text

/-- The series of several conditions, one condition after the other. -/
theorem seriesOfAll_eq (cs : List Condition) : seriesOfAll cs = cs.flatMap series := by
  induction cs with
  | nil => rfl
  | cons c rest ih => simp [seriesOfAll, ih]

/-- Several conditions as expressions, one by one. -/
theorem toExprs_eq (cs : List Condition) : toExprs cs = cs.map toExpr := by
  induction cs with
  | nil => rfl
  | cons c rest ih => simp [toExprs, ih]

section Induct

variable {P : Condition → Prop} (comparison : ∀ r a b, P (.comparison r a b))
  (all : ∀ cs, (∀ c ∈ cs, P c) → P (.all cs)) (any : ∀ cs, (∀ c ∈ cs, P c) → P (.any cs))
  (after : ∀ c d, P c → P (.after c d)) (changeOver : ∀ s p d, P (.changeOver s p d))
  (change : ∀ s p, P (.change s p)) (trend : ∀ r s d, P (.trend r s d))

include comparison all any after changeOver change trend

/-- **Induction on conditions**: a junction follows its conditions. -/
@[elab_as_elim]
theorem induct (c : Condition) : P c := by
  refine @Condition.rec P (fun cs => ∀ c ∈ cs, P c)
    comparison all any (fun c d hc => after c d hc) changeOver change trend ?_ ?_ c
  · exact fun c hc => nomatch hc
  · exact fun c cs hc hcs => List.forall_mem_cons.2 ⟨hc, hcs⟩

end Induct

example : (comparison .above (.price "AAPL" .close) (.constant 100)).text =
    "GreaterThanCondition(first_series=PRICE('AAPL', price_type=PriceType.CLOSE), " ++
      "second_series=CONST(100))" := rfl

end Condition

end TradeSignals
