import TradeSignals.Proofs.Strategy.SeriesText
import TradeSignals.Proofs.Trades.NoLookAhead
import TradeSignals.Proofs.Trades.Reached
import TradeSignals.Proofs.Trades.Served

/-!
# Tables that are used again

A table may be evaluated and run over as often as one likes
(`TradeSignals.BarTable.Reached`). Each time it keeps more series, and each run overwrites its
columns. If the source of numbers goes by the ticker and the bars of a table only, none of
this can be noticed later: conditions give the signals they would give if every series were
read anew each time it is met, and a strategy does what it would do over a new table
(`TradeSignals.BarTable.reached_transparent`).

What carries this is that all numbers that are kept are those the source would give now. A
number that is kept under the text of a series was read for that series, since no other one has
the same text.
-/

namespace TradeSignals

/-! ### Sources that go by the bars -/

namespace SeriesSource

variable {σ : Type}

/-- **A source that goes by the ticker and the bars** of a table only: not by what else is in
the table, and not by its own state. -/
def ReadsBars (source : SeriesSource (StateM σ)) : Prop :=
  ∀ s t u k l, t.ticker = u.ticker → t.bars = u.bars → (source s t k).1 = (source s u l).1

/-- The source that computes goes by the ticker and the bars. -/
theorem readsBars_ofBars (others : TickerBars) :
    (ofBars others : SeriesSource (StateM σ)).ReadsBars := by
  have hpure : ∀ s t (k : σ), (ofBars (m := StateM σ) others s t k).1 =
      (ofBars (m := Id) others s t : List Float) := by
    intro s t k
    rw [gives_ofBars t.ticker others s t rfl]
    rfl
  intro s t u k l hticker hbars
  have hdates : t.dates = u.dates := congrArg (List.map Bar.date) hbars
  have hsize : t.size = u.size := congrArg List.length hbars
  rw [hpure, hpure, ofBars, ofBars, hticker, hbars, hdates, hsize]

/-- The numbers that a source gives for a series and a table when it is asked anew, as many as
there are bars. -/
def column (source : SeriesSource (StateM σ)) (t : BarTable) (k : σ) (s : Series) :
    List Float :=
  Column.fit t.size Quantity.missing (source s t k).1

end SeriesSource

namespace BarTable

/-! ### What is kept is what would be read now -/

section Sound

variable {σ : Type}

/-- **A table over the ticker and the bars of another one,** with numbers that are those of
their series. -/
structure Sound (numbers : Series → List Float) (fresh t : BarTable) : Prop where
  /-- The ticker is the same. -/
  ticker : t.ticker = fresh.ticker
  /-- The bars are the same. -/
  bars : t.bars = fresh.bars
  /-- The numbers that are kept. -/
  cache : t.KeepsOnly numbers

variable {source : SeriesSource (StateM σ)} {fresh t u : BarTable} {k : σ}

theorem Sound.size (h : Sound (source.column fresh k) fresh t) : t.size = fresh.size :=
  congrArg List.length h.bars

/-- One more series that is read is kept with its numbers. -/
theorem Sound.keep (hsource : source.ReadsBars) (h : Sound (source.column fresh k) fresh t)
    (s : Series) (l : σ) : Sound (source.column fresh k) fresh
      (t.keep s.text (Column.fit t.size Quantity.missing (source s t l).1)) where
  ticker := h.ticker
  bars := h.bars
  cache := by
    intro other values hvalues
    change (t.cache.put s.text _).get? other.text = some values at hvalues
    rw [Dictionary.get?_put] at hvalues
    -- Only the series itself is found under its text.
    split at hvalues
    · next htext =>
      obtain rfl := Series.text_injective htext
      rw [← Option.some.inj hvalues, SeriesSource.column, h.size,
        hsource other t fresh l k h.ticker h.bars]
    · exact h.cache other values hvalues

theorem Sound.reads (hsource : source.ReadsBars) (h : Sound (source.column fresh k) fresh t)
    (hu : Reads source t u) : Sound (source.column fresh k) fresh u := by
  induction hu with
  | none => exact h
  | more _ s l _ ih => exact ih.keep hsource s l

/-- **All that a reachable table keeps** is what the source would give for a new one. -/
theorem Reached.sound {ticker : String} {bars : List (Bar Float)} (hsource : source.ReadsBars)
    (ht : Reached source ticker bars t) (k : σ) :
    Sound (source.column (.ofBars ticker bars) k) (.ofBars ticker bars) t :=
  ht.induct ⟨rfl, rfl, fun _ _ h => nomatch h⟩ (fun h hu => h.reads hsource hu)
    fun _ _ _ _ h => ⟨h.ticker, h.bars, h.cache⟩

/-- The signals of a condition over such a table are those for the numbers of a new one. -/
theorem Sound.evaluate_eq (hsource : source.ReadsBars)
    (h : Sound (source.column fresh k) fresh t) (c : Condition) (l : σ) :
    (evaluate source c t l).1.1 = c.signals fresh.size (source.column fresh k) := by
  obtain ⟨hreads, hsignals⟩ := evaluate_spec source c t l
  rw [hsignals _ (h.reads hsource hreads).cache, h.size]

end Sound

/-! ### Runs over a table that is used again -/

/-- Two tables with the same columns. -/
structure SameColumns (t u : BarTable) : Prop where
  /-- The same is bought. -/
  buy : t.buy = u.buy
  /-- The same is sold. -/
  sell : t.sell = u.sell
  /-- It is bought for the same reasons. -/
  buySignals : t.buySignals = u.buySignals
  /-- It is sold for the same reasons. -/
  sellSignals : t.sellSignals = u.sellSignals
  /-- The long side changes in the same way. -/
  long : t.long = u.long
  /-- The short side changes in the same way. -/
  short : t.short = u.short

section Runs

variable {σ : Type} {source : SeriesSource (StateM σ)} {fresh t u : BarTable} {k : σ}

/-- A run over such a table goes by the numbers of a new one. -/
theorem Sound.exists_run_eq (hsource : source.ReadsBars)
    (h : Sound (source.column fresh k) fresh t) (s : Strategy) (l : σ) :
    ∃ u, (s.run source t l).1 =
      let buy := s.buyCondition.signals fresh.size (source.column fresh k)
      let sell := s.sellCondition.signals fresh.size (source.column fresh k)
      let done := Reconciliation.withExits s.positionType
        (s.exits (Bar.closes fresh.bars)).rule .start buy.flags sell.flags
      (done.1, Strategy.record u done.1 done.2 buy sell) := by
  have hbuy := h.evaluate_eq hsource s.buyCondition l
  have hafter := h.reads hsource (evaluate_spec source s.buyCondition t l).1
  have hsell := hafter.evaluate_eq hsource s.sellCondition (evaluate source s.buyCondition t l).2
  have hdone := hafter.reads hsource (evaluate_spec source s.sellCondition _
    (evaluate source s.buyCondition t l).2).1
  rw [Strategy.run_state]
  dsimp only
  rw [hbuy, hsell, hdone.bars]
  exact ⟨_, rfl⟩

/-- A strategy does the same over two such tables. -/
theorem Sound.run_eq (hsource : source.ReadsBars) (ht : Sound (source.column fresh k) fresh t)
    (hu : Sound (source.column fresh k) fresh u) (s : Strategy) (l l' : σ) :
    (s.run source t l).1.1 = (s.run source u l').1.1 ∧
      SameColumns (s.run source t l).1.2 (s.run source u l').1.2 := by
  obtain ⟨v, hrun⟩ := ht.exists_run_eq hsource s l
  obtain ⟨w, hrun'⟩ := hu.exists_run_eq hsource s l'
  rw [hrun, hrun']
  exact ⟨rfl, ⟨rfl, rfl, rfl, rfl, rfl, rfl⟩⟩

end Runs

/-- **Using a table again changes nothing.** The source that computes goes by the ticker and
the bars of a table. An evaluation changes nothing but what is kept. And over a table that was
reached with a source that goes by the ticker and the bars, a condition gives the signals that
come of asking the source anew wherever a series is met, and a strategy gives the rows and
writes the columns that it gives and writes over a new table. -/
theorem reached_transparent {σ : Type} :
    (∀ others, (SeriesSource.ofBars others : SeriesSource (StateM σ)).ReadsBars) ∧
    (∀ (source : SeriesSource (StateM σ)) c t k,
      (∃ cache, (evaluate source c t k).1.2 = { t with cache := cache }) ∧
        (evaluate source c t k).1.2.index? = t.index?) ∧
    ∀ source : SeriesSource (StateM σ), source.ReadsBars →
      ∀ ticker bars t, Reached source ticker bars t →
        (∀ c k l, (evaluate source c t k).1.1 =
          c.signals (ofBars ticker bars).size (source.column (.ofBars ticker bars) l)) ∧
        ∀ (s : Strategy) k l,
          (s.run source t k).1.1 = (s.run source (.ofBars ticker bars) l).1.1 ∧
            SameColumns (s.run source t k).1.2 (s.run source (.ofBars ticker bars) l).1.2 := by
  refine ⟨SeriesSource.readsBars_ofBars, fun source c t k => ?_, ?_⟩
  · obtain ⟨cache, hafter⟩ := (evaluate_spec source c t k).1.frame
    exact ⟨⟨cache, hafter⟩, by rw [hafter]; rfl⟩
  · intro source hsource ticker bars t ht
    refine ⟨fun c k l => (ht.sound hsource l).evaluate_eq hsource c k, fun s k l => ?_⟩
    exact (ht.sound hsource l).run_eq hsource (Reached.fresh.sound hsource l) s k l

/-- The source that computes from the bars of a table alone. -/
def ownSource : SeriesSource (StateM Unit) := .ofBars .empty

/-- A table over which a strategy was run once. -/
def usedTable : BarTable :=
  (Backtest.comparing.run ownSource (.ofBars "A" (Backtest.fewBars "A")) ()).1.2

/-- Over this table the strategy does again what it did. -/
theorem reached_transparent_used :
    ownSource.ReadsBars ∧ Reached ownSource "A" (Backtest.fewBars "A") usedTable ∧
      (Backtest.comparing.run ownSource usedTable ()).1.1 =
        (Backtest.comparing.run ownSource (.ofBars "A" (Backtest.fewBars "A")) ()).1.1 ∧
      SameColumns (Backtest.comparing.run ownSource usedTable ()).1.2 usedTable := by
  have hsource : ownSource.ReadsBars := SeriesSource.readsBars_ofBars .empty
  have hreached : Reached ownSource "A" (Backtest.fewBars "A") usedTable :=
    Reached.fresh.run Backtest.comparing ()
  obtain ⟨-, -, htransparent⟩ := reached_transparent (σ := Unit)
  exact ⟨hsource, hreached,
    (htransparent ownSource hsource "A" _ usedTable hreached).2 Backtest.comparing () ()⟩

end BarTable

end TradeSignals
