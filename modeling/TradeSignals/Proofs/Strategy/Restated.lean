import Mathlib.Data.List.Perm.Basic
import TradeSignals.Calendar.DateText
import TradeSignals.Expr.Basic
import TradeSignals.Proofs.Expr.Places
import TradeSignals.Strategy.Field

/-!
# The same strategy in other words

Strategy text leaves the writer some freedom. The arguments of a call may be given by position
or by keyword, and keywords in any order; a number may be written as an integer, a retracement
level as its ratio, and a date without its zeros; a series may leave its ticker to the
strategy, and a setting that is absent may be written as `None`. An expression is *restated* by
another one (`TradeSignals.Expr.Restated`, and `TradeSignals.Expr.RestatedStrategy` for a whole
strategy) if it makes use of this freedom and of nothing else.

So a restatement keeps every argument of a call and every condition of a junction, and adds
nothing but tickers; in particular it makes the same calls
(`TradeSignals.Expr.RestatedStrategy.calls_perm`). What one argument may be written as depends
on the tag of its parameter.
-/

namespace TradeSignals

/-- What a call has to build where a tag stands, if it is a tag for calls. -/
def Category.tag? : Category → Option Tag
  | .strategy => none
  | .condition => some .condition
  | .series => some .series
  | .orderSize => some .orderSize
  | .commission => some .commission
  | .stopLoss => some .stopLoss
  | .takeProfit => some .takeProfit

namespace Constructor

/-- The parameter by which a series names its ticker. -/
def tickerSlot : Slot := ⟨"ticker", .ticker⟩

/-- What may be given by position: the ticker of a series that has one, then the parameters
in order. -/
def parameters (c : Constructor) : List Slot :=
  if c.takesTicker then tickerSlot :: c.slots else c.slots

/-- The arguments of a call, each under the name of its parameter: those by position get the
names of the parameters in order. -/
def named {α : Type} (c : Constructor) (args : List α) (keywords : List (String × α)) :
    List (String × α) :=
  (c.parameters.map (·.name)).zip args ++ keywords

/-- The call of a constructor in canonical form. The first argument of a series stands
before the others, without a keyword. -/
def written (c : Constructor) (args : List (String × Expr)) : Expr :=
  match c.category with
  | .series => .call c.name ((args.take 1).map (·.2)) (args.drop 1)
  | _ => .call c.name [] args

variable {c : Constructor}

theorem parameters_of_takesTicker (h : c.takesTicker = true) :
    c.parameters = tickerSlot :: c.slots :=
  if_pos h

theorem parameters_of_not_takesTicker (h : c.takesTicker = false) : c.parameters = c.slots :=
  if_neg (Bool.eq_false_iff.1 h)

theorem takesTicker_of_category (h : c.category ≠ .series) : c.takesTicker = false := by
  rw [takesTicker, decide_eq_false h, Bool.false_and]

theorem variadic_of_category (h : c.category ≠ .condition) : c.variadic = false := by
  cases c with
  | and | or => exact absurd rfl h
  | _ => rfl

theorem written_of_series (h : c.category = .series) (first : String × Expr)
    (rest : List (String × Expr)) : c.written (first :: rest) = .call c.name [first.2] rest := by
  rw [written, h]
  rfl

theorem written_of_category (h : c.category ≠ .series) (args : List (String × Expr)) :
    c.written args = .call c.name [] args := by
  unfold written
  split
  · next hseries => exact absurd hseries h
  · rfl

end Constructor

namespace Expr

mutual

/-- **One expression restates another one** in the place of a parameter with a tag, in a
strategy on a ticker. -/
inductive Restated (ticker : String) : Tag → Expr → Expr → Prop
  /-- A constant stays as it is. -/
  | literal (tag : Tag) (l : Literal) : Restated ticker tag (.literal l) (.literal l)
  /-- A member of an enumeration stays as it is. -/
  | member (tag : Tag) (kind item : String) :
    Restated ticker tag (.member kind item) (.member kind item)
  /-- An integer stands for a number. -/
  | number (v : Int64) : Restated ticker .float (.int v) (.float (Float.ofInt v.toInt))
  /-- A text stands for the date that it is read as. -/
  | date {text : String} {d : Date} (h : Date.read text = .ok d) :
    Restated ticker .date (.quoted text) (.quoted d.text)
  /-- A ratio stands for the level near it. -/
  | ratio {x : Float} {level : Retracement} (h : (level.ratio - x).abs < 1e-9) :
    Restated ticker .retracement (.float x)
      (.member Retracement.kindName (Choice.label level))
  /-- A ratio may be written as an integer. -/
  | wholeRatio {v : Int64} {level : Retracement}
    (h : (level.ratio - Float.ofInt v.toInt).abs < 1e-9) :
    Restated ticker .retracement (.int v) (.member Retracement.kindName (Choice.label level))
  /-- The conditions of a junction are restated one by one, in their order. -/
  | junction {c : Constructor} (hc : c.variadic = true) {args args' : List Expr}
    (hargs : RestatedEach ticker args args') :
    Restated ticker .condition (.call c.name args []) (.call c.name args' [])
  /-- The arguments of a call are restated one by one, after each has found its parameter. -/
  | call {c : Constructor} {tag : Tag} (htag : c.category.tag? = some tag)
    (hc : c.variadic = false) {args : List Expr} {keywords given given' : List (String × Expr)}
    (hlength : args.length ≤ c.parameters.length) (hgiven : (c.named args keywords).Perm given)
    (harguments : RestatedArguments ticker c.parameters given given') :
    Restated ticker tag (.call c.name args keywords) (c.written given')
  /-- In a series without a ticker, that of the strategy is meant. -/
  | ownTicker {c : Constructor} (hc : c.takesTicker = true)
    {keywords given given' : List (String × Expr)}
    (hgiven : ((Constructor.tickerSlot.name, .quoted ticker) :: keywords).Perm given)
    (harguments : RestatedArguments ticker c.parameters given given') :
    Restated ticker .series (.call c.name [] keywords) (c.written given')

/-- Several conditions are restated by others, one by one. -/
inductive RestatedEach (ticker : String) : List Expr → List Expr → Prop
  /-- No condition is restated by none. -/
  | nil : RestatedEach ticker [] []
  /-- The first condition by the first one, and so on. -/
  | cons {e e' : Expr} {es es' : List Expr} (h : Restated ticker .condition e e')
    (hrest : RestatedEach ticker es es') : RestatedEach ticker (e :: es) (e' :: es')

/-- The arguments for several parameters are restated by others, one by one. Each of the
parameters has one argument, and all of them are in the order of the parameters. -/
inductive RestatedArguments (ticker : String) :
    List Slot → List (String × Expr) → List (String × Expr) → Prop
  /-- Where there is no parameter there is no argument. -/
  | nil : RestatedArguments ticker [] [] []
  /-- The argument of the first parameter by another one, and so on. -/
  | cons {slot : Slot} {slots : List Slot} {e e' : Expr} {given given' : List (String × Expr)}
    (h : Restated ticker slot.tag e e') (hrest : RestatedArguments ticker slots given given') :
    RestatedArguments ticker (slot :: slots) ((slot.name, e) :: given)
      ((slot.name, e') :: given')

end

/-- Is a keyword argument of a strategy an explicit `None` for a setting that may be absent? -/
def isExplicitNone (argument : String × Expr) : Bool :=
  argument.2 = .literal .none &&
    [Field.stopLoss, .takeProfit, .tradeCommissions].any (·.key == argument.1)

/-- **One strategy restates another one**, both of them written as expressions. Some of the
parameters of a strategy are given, each of them once, and no others; and the ticker is. -/
inductive RestatedStrategy : Expr → Expr → Prop
  /-- The arguments that are not an explicit `None` are restated one by one. -/
  | intro {ticker : String} {slots : List Slot} (hslots : slots.Sublist Constructor.strategy.slots)
    {keywords given given' : List (String × Expr)}
    (hgiven : (keywords.filter fun k => !isExplicitNone k).Perm given)
    (hticker : (Constructor.tickerSlot.name, .quoted ticker) ∈ given)
    (harguments : RestatedArguments ticker slots given given') :
    RestatedStrategy (.call Constructor.strategy.name [] keywords)
      (Constructor.strategy.written given')

/-! ### Calls are kept -/

/-- The name of a call. -/
def callee? : Expr → Option String
  | .call callee _ _ => some callee
  | _ => none

/-- The names of all calls in an expression. -/
def calls (e : Expr) : List String :=
  e.subterms.filterMap callee?

theorem calls_eq (e : Expr) : e.calls = e.callee?.toList ++ e.children.flatMap calls := by
  rw [calls, subterms_eq, List.filterMap_cons, List.filterMap_flatMap]
  cases e.callee? <;> rfl

theorem calls_call (c : String) (ps : List Expr) (ks : List (String × Expr)) :
    (call c ps ks).calls = c :: (ps ++ ks.map (·.2)).flatMap calls :=
  calls_eq _

theorem calls_written (c : Constructor) (args : List (String × Expr)) :
    (c.written args).calls = c.name :: (args.map (·.2)).flatMap calls := by
  by_cases hseries : c.category = .series
  · cases args with
    | nil =>
      rw [Constructor.written, hseries]
      rfl
    | cons first rest =>
      rw [Constructor.written_of_series hseries, calls_call, List.singleton_append, List.map_cons]
  · rw [Constructor.written_of_category hseries, calls_call, List.nil_append]

/-- Names leave the arguments of a call as they are. -/
theorem map_snd_named {c : Constructor} {args : List Expr} {keywords : List (String × Expr)}
    (h : args.length ≤ c.parameters.length) :
    (c.named args keywords).map (·.2) = args ++ keywords.map (·.2) := by
  rw [Constructor.named, List.map_append]
  exact congrArg (· ++ _) (List.map_snd_zip (by rwa [List.length_map]))

mutual

/-- **A restatement makes the same calls**, in whatever order. -/
theorem Restated.calls_perm {ticker : String} {tag : Tag} {e e' : Expr} :
    Restated ticker tag e e' → e.calls.Perm e'.calls
  | .literal _ _ | .member _ _ _ => .refl _
  | .number _ | .date _ | .ratio _ | .wholeRatio _ => .refl []
  | .junction _ hargs => by
    rw [calls_call, calls_call, List.map_nil, List.append_nil, List.append_nil]
    exact hargs.calls_perm.cons _
  | .call _ _ hlength hgiven harguments => by
    rw [calls_call, calls_written, ← map_snd_named hlength]
    exact (((hgiven.map _).flatMap_right _).trans harguments.calls_perm).cons _
  | .ownTicker _ hgiven harguments => by
    rw [calls_call, calls_written, List.nil_append]
    -- The ticker that is filled in is no call.
    exact (((hgiven.map _).flatMap_right calls).trans harguments.calls_perm).cons _

theorem RestatedEach.calls_perm {ticker : String} {es es' : List Expr} :
    RestatedEach ticker es es' → (es.flatMap calls).Perm (es'.flatMap calls)
  | .nil => .refl _
  | .cons h hrest => h.calls_perm.append hrest.calls_perm

theorem RestatedArguments.calls_perm {ticker : String} {slots : List Slot}
    {given given' : List (String × Expr)} : RestatedArguments ticker slots given given' →
      ((given.map (·.2)).flatMap calls).Perm ((given'.map (·.2)).flatMap calls)
  | .nil => .refl _
  | .cons h hrest => h.calls_perm.append hrest.calls_perm

end

/-- An explicit `None` is no call. -/
theorem flatMap_calls_filter (keywords : List (String × Expr)) :
    ((keywords.filter fun k => !isExplicitNone k).map (·.2)).flatMap calls =
      (keywords.map (·.2)).flatMap calls := by
  induction keywords with
  | nil => rfl
  | cons k keywords ih =>
    rw [List.map_cons, List.flatMap_cons, ← ih]
    cases hnone : isExplicitNone k with
    | true =>
      rw [List.filter_cons_of_neg (by rw [hnone]; decide),
        of_decide_eq_true (Bool.and_eq_true_iff.1 hnone).1]
      rfl
    | false => rw [List.filter_cons_of_pos (by rw [hnone]; rfl), List.map_cons, List.flatMap_cons]

/-- **A strategy in other words makes the same calls.** -/
theorem RestatedStrategy.calls_perm {e e' : Expr} (h : RestatedStrategy e e') :
    e.calls.Perm e'.calls := by
  obtain ⟨-, hgiven, -, harguments⟩ := h
  rw [calls_call, calls_written, List.nil_append, ← flatMap_calls_filter]
  exact (((hgiven.map _).flatMap_right calls).trans harguments.calls_perm).cons _

end Expr

end TradeSignals
