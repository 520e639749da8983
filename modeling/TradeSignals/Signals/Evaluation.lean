import TradeSignals.Signals.Column
import TradeSignals.Signals.SeriesSource
import TradeSignals.Strategy.Condition

/-!
# Evaluating conditions

A condition is evaluated over a whole table at once. What comes out is a signal for each
bar: the label of what held there, or nothing. A missing number makes every comparison
fail, so nothing is signalled where a series has no number.

Each series is read once for a table and kept there under its canonical text.
-/

namespace TradeSignals

/-- A signal for each bar: the label of what holds, if it does. -/
abbrev Signals := List (Option String)

namespace Signals

/-- On which bars something is signalled. -/
def flags (signals : Signals) : List Bool := signals.map (·.isSome)

/-- On how many bars something is signalled. -/
def count (signals : Signals) : Nat := signals.flags.count true

/-- The same label wherever a flag is set. -/
def mark (label : String) (flags : List Bool) : Signals :=
  flags.map fun on => if on then some label else none

/-! ### Comparisons -/

/-- Is each pair of numbers such that the comparison with the pair before holds? The
first pair has none before it. -/
def againstPrevious {α : Type} (holds : α → α → Bool) : List α → List Bool
  | [] => []
  | first :: rest => false :: List.zipWith (fun now before => holds before now) rest (first :: rest)

/-- The numbers of two series on each bar of the first. -/
def pairs (first second : List Float) : List (Float × Float) :=
  first.zip (Column.fit first.length Quantity.missing second)

/-- On which bars two series stand in a relation. A crossing is looked for on every bar
of the first. -/
def related (relation : Relation) (first second : List Float) : List Bool :=
  match relation with
  | .above => (first.zip second).map fun p => decide (p.1 > p.2)
  | .below => (first.zip second).map fun p => decide (p.1 < p.2)
  | .crossedAbove =>
    againstPrevious (fun p q => decide (p.1 < p.2) && decide (q.1 > q.2)) (pairs first second)
  | .crossedBelow =>
    againstPrevious (fun p q => decide (p.1 > p.2) && decide (q.1 < q.2)) (pairs first second)

/-! ### Change -/

/-- Has a number changed from `base` by so many percent? A threshold of zero is never
met, and nothing changes from zero or from a missing number. -/
def changedBy (percent base now : Float) : Bool :=
  if percent == 0 || base == 0 || base.isNaN then false
  else
    let change := (now - base) / base * 100
    if percent > 0 then change ≥ percent else change ≤ percent

/-- On which bars a series has changed by so many percent over so many bars. -/
def changed (percent : Float) (days : Nat) (values : List Float) : List Bool :=
  List.replicate (min days values.length) false ++
    List.zipWith (fun now base => changedBy percent base now) (values.drop days) values

/-- Does a step go one way, or nowhere? -/
def goes : Direction → Float → Float → Bool
  | .up, before, now => now ≥ before
  | .down, before, now => now ≤ before

/-- For how many steps in a row each bar has been going one way, `count` before. -/
def streaksFrom (direction : Direction) (before : Float) (count : Nat) : List Float → List Nat
  | [] => []
  | now :: rest =>
    let count := if goes direction before now then count + 1 else 0
    count :: streaksFrom direction now count rest

/-- For how many steps in a row each bar has been going one way. -/
def streaks (direction : Direction) : List Float → List Nat
  | [] => []
  | first :: rest => 0 :: streaksFrom direction first 0 rest

/-- On which bars a series has been going one way for so many steps. -/
def trending (direction : Direction) (days : Nat) (values : List Float) : List Bool :=
  (streaks direction values).map fun count => decide (days ≤ count)

/-! ### Signals from signals -/

/-- The labels of several conditions on each bar, where all of them hold. -/
def together (size : Nat) : List Signals → List (Option (List String))
  | [] => List.replicate size (some [])
  | signals :: rest =>
    List.zipWith (fun label labels => do return (← label) :: (← labels))
      (Column.fit size none signals) (together size rest)

/-- Where all of several conditions hold, with all their labels. No conditions hold
nowhere. -/
def all (size : Nat) (results : List Signals) : Signals :=
  if results = [] then List.replicate size none
  else (together size results).map
    fun labels => labels.map fun labels => "AND(" ++ ", ".intercalate labels ++ ")"

/-- Where one of several conditions holds, with the label of the last that does. -/
def any (size : Nat) (results : List Signals) : Signals :=
  (results.map (Column.fit size none)).foldl
    (List.zipWith fun before label => label.or before) (List.replicate size none)

/-- Signals so many bars later. -/
def delayed (days : Nat) (signals : Signals) : Signals :=
  List.replicate (min days signals.length) none ++
    (signals.take (signals.length - days)).map
      fun label => label.map fun label => s!"AfterXDaysSignal({days}, {label})"

end Signals

/-! ### Labels -/

/-- What a comparison is called in signals. -/
def Relation.signalName : Relation → String
  | .above => "GreaterThanSignal"
  | .below => "LessThanSignal"
  | .crossedAbove => "CrossOverSignal"
  | .crossedBelow => "CrossUnderSignal"

/-- What a trend is called in signals. -/
def Direction.signalName : Direction → String
  | .up => "UptrendForXDaysSignal"
  | .down => "DowntrendForXDaysSignal"

/-- The label of a signal: a name and its arguments. -/
def signalLabel (name : String) (arguments : List String) : String :=
  name ++ "(" ++ ", ".intercalate arguments ++ ")"

/-! ### Evaluation -/

namespace BarTable

variable {m : Type → Type} [Monad m]

/-- The numbers of a series, read from the source the first time only. -/
def resolve (source : SeriesSource m) (s : Series) : StateT BarTable m (List Float) := do
  let t ← get
  match t.cache.get? s.text with
  | some values => return values
  | none =>
    let values := Column.fit t.size Quantity.missing (← source s t)
    modify (·.keep s.text values)
    return values

mutual

/-- **Evaluates a condition** over the table. -/
def evaluate (source : SeriesSource m) : Condition → StateT BarTable m Signals
  | .comparison relation first second => do
    let a ← resolve source first
    let b ← resolve source second
    return .mark (signalLabel relation.signalName [first.text, second.text])
      (Signals.related relation a b)
  | .all conditions => do
    let results ← evaluateAll source conditions
    return .all (← get).size results
  | .any conditions => do
    let results ← evaluateAll source conditions
    return .any (← get).size results
  | .after base days => do
    return .delayed days.toNat (← evaluate source base)
  | .changeOver s percent days => do
    let values ← resolve source s
    return .mark
      (signalLabel "ChangeOfXPercentPerYDaysSignal"
        [s.text, NumberLayout.canonical.text percent, toString days])
      (Signals.changed percent days.toNat values)
  | .change s percent => do
    let values ← resolve source s
    return .mark
      (signalLabel "IntraIntervalChangeOfXPercentSignal"
        [s.text, NumberLayout.canonical.text percent])
      (Signals.changed percent 1 values)
  | .trend direction s days => do
    let values ← resolve source s
    return .mark (signalLabel direction.signalName [s.text, toString days])
      (Signals.trending direction days.toNat values)

/-- Evaluates several conditions, one after the other. -/
def evaluateAll (source : SeriesSource m) : List Condition → StateT BarTable m (List Signals)
  | [] => return []
  | c :: rest => do
    let signals ← evaluate source c
    return signals :: (← evaluateAll source rest)

end

end BarTable

end TradeSignals
