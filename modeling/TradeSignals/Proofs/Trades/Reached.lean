import TradeSignals.Proofs.Signals.Reading
import TradeSignals.Trades.Backtest

/-!
# Tables that can be reached

A table begins with the bars of a ticker and nothing else. From then on conditions are
evaluated over it and strategies are run, in any order and as often as one likes
(`TradeSignals.BarTable.Reached`). The source of numbers may have a state of its own; it is in
whatever state it is each time.
-/

namespace TradeSignals

/-! ### What a run computes -/

/-- Running a strategy over a table, with a source that has a state. -/
theorem Strategy.run_state {σ : Type} (source : SeriesSource (StateM σ)) (s : Strategy)
    (t : BarTable) (k : σ) : s.run source t k =
      let buy := BarTable.evaluate source s.buyCondition t k
      let sell := BarTable.evaluate source s.sellCondition buy.1.2 buy.2
      let done := Reconciliation.withExits s.positionType
        (s.exits (Bar.closes sell.1.2.bars)).rule .start buy.1.1.flags sell.1.1.flags
      ((done.1, record sell.1.2 done.1 done.2 buy.1.1 sell.1.1), sell.2) :=
  rfl

namespace BarTable

/-! ### Reachable tables -/

variable {σ : Type}

/-- **The tables of a ticker and bars that can be reached** with a source, in whatever state
the source is each time. -/
inductive Reached (source : SeriesSource (StateM σ)) (ticker : String) (bars : List (Bar Float)) :
    BarTable → Prop where
  /-- A new table. -/
  | fresh : Reached source ticker bars (.ofBars ticker bars)
  /-- A condition was evaluated. -/
  | evaluate {t : BarTable} (h : Reached source ticker bars t) (c : Condition) (k : σ) :
      Reached source ticker bars (BarTable.evaluate source c t k).1.2
  /-- A strategy was run. -/
  | run {t : BarTable} (h : Reached source ticker bars t) (s : Strategy) (k : σ) :
      Reached source ticker bars (s.run source t k).1.2

variable {source : SeriesSource (StateM σ)} {ticker : String} {bars : List (Bar Float)}
  {t u : BarTable}

/-- **What holds of all reachable tables:** what holds of a new one, and goes on to hold when
series are read and when a run writes its columns. -/
theorem Reached.induct {I : BarTable → Prop} (ht : Reached source ticker bars t)
    (fresh : I (.ofBars ticker bars)) (reads : ∀ {t u}, I t → Reads source t u → I u)
    (columns : ∀ {t} (rows fired buy sell), I t → I (Strategy.record t rows fired buy sell)) :
    I t := by
  induction ht with
  | fresh => exact fresh
  | evaluate _ c k ih => exact reads ih (evaluate_spec source c _ k).1
  | run _ s k ih =>
    exact columns _ _ _ _ (reads (reads ih (evaluate_spec source s.buyCondition _ k).1)
      (evaluate_spec source s.sellCondition _ _).1)

end BarTable

end TradeSignals
