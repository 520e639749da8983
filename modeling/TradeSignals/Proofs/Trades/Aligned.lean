import TradeSignals.Proofs.Signals.Indexed
import TradeSignals.Proofs.Trades.NoLookAhead
import TradeSignals.Proofs.Trades.Reached

/-!
# Columns are aligned with the bars

Every column of a table has one entry for each bar, and so has every series that is kept. This
is an invariant of all that is done with a table (`TradeSignals.BarTable.Aligned`): of reading
series, because what a source answers is cut off or filled up before it is kept, and of runs,
because there are as many rows as there are signals and as many signals as there are bars. A
label stands in a column exactly where its flag is set, also where the flag was added or taken
away after the conditions had been evaluated.

It is also why the bars may be gone through by index without looking
(`TradeSignals.BarTable.reached_aligned`).
-/

namespace TradeSignals

/-- Signals for numbers that are columns are a column. -/
theorem Condition.length_signals {size : ℕ} {numbers : Series → List Float}
    (h : ∀ s, (numbers s).length = size) (c : Condition) :
    (c.signals size numbers).length = size := by
  have hmark : ∀ {flags : List Bool} {label : String}, flags.length = size →
      (Signals.mark label flags).length = size := fun hflags => (List.length_map _).trans hflags
  have hall : ∀ {cs : List Condition}, (∀ c ∈ cs, (c.signals size numbers).length = size) →
      ∀ s ∈ signalsOfAll size numbers cs, s.length = size := by
    intro cs hcs
    induction cs with
    | nil => nofun
    | cons c cs ih =>
      exact List.forall_mem_cons.2 ⟨hcs c List.mem_cons_self,
        ih fun d hd => hcs d (List.mem_cons_of_mem c hd)⟩
  induction c using Condition.induct with
  | comparison relation first second =>
    exact hmark (Signals.grown_related relation (Indexed.grown_self (h first))
      (Indexed.grown_self (h second))).length_left
  | all cs ih => exact Indexed.length_all (hall ih)
  | any cs ih => exact Indexed.length_any (hall ih)
  | after base days ih => exact ((Signals.causal_delayed _).length_eq _).trans ih
  | changeOver s percent days =>
    exact hmark (((Signals.causal_changed percent _).length_eq _).trans (h s))
  | change s percent => exact hmark (((Signals.causal_changed percent _).length_eq _).trans (h s))
  | trend direction s days =>
    exact hmark (((Signals.causal_trending direction _).length_eq _).trans (h s))

namespace BarTable

/-- **All columns of a table have the size of the table,** and labels stand where flags are
set. -/
structure Aligned (t : BarTable) : Prop where
  /-- Every series that is kept has a number for each bar. -/
  cache : ∀ key values, t.cache.get? key = some values → values.length = t.size
  /-- There is a flag for each bar. -/
  buy : t.buy.length = t.size
  /-- There is a flag for each bar. -/
  sell : t.sell.length = t.size
  /-- There is a label, or none, for each bar. -/
  buySignals : t.buySignals.length = t.size
  /-- There is a label, or none, for each bar. -/
  sellSignals : t.sellSignals.length = t.size
  /-- There is a change, or none, for each bar. -/
  long : t.long.length = t.size
  /-- There is a change, or none, for each bar. -/
  short : t.short.length = t.size
  /-- What is bought has a label, and nothing else has one. -/
  isSome_buySignals : t.buySignals.map Option.isSome = t.buy
  /-- What is sold has a label, and nothing else has one. -/
  isSome_sellSignals : t.sellSignals.map Option.isSome = t.sell

/-- The numbers that a table keeps for a series; gaps if it keeps none. -/
def kept (t : BarTable) (s : Series) : List Float :=
  (t.cache.get? s.text).getD (Quantity.gaps t.size)

theorem keepsOnly_kept (t : BarTable) : t.KeepsOnly t.kept := by
  intro s values hs
  rw [kept, hs, Option.getD_some]

theorem Aligned.length_kept {t : BarTable} (h : t.Aligned) (s : Series) :
    (t.kept s).length = t.size := by
  rw [kept]
  rcases hcache : t.cache.get? s.text with _ | values
  · exact List.length_replicate
  · exact h.cache _ _ hcache

section Evaluate

variable {σ : Type} {source : SeriesSource (StateM σ)} {t u : BarTable}

theorem aligned_ofBars (ticker : String) (bars : List (Bar Float)) :
    (ofBars ticker bars).Aligned where
  cache _ _ h := nomatch h
  buy := List.length_replicate
  sell := List.length_replicate
  buySignals := List.length_replicate
  sellSignals := List.length_replicate
  long := List.length_replicate
  short := List.length_replicate
  isSome_buySignals := List.map_replicate
  isSome_sellSignals := List.map_replicate

/-- Reading series keeps the columns aligned. -/
theorem Aligned.reads (h : t.Aligned) (hu : Reads source t u) : u.Aligned := by
  induction hu with
  | none => exact h
  | @more u _ s k _ ih =>
    refine { ih with cache := fun key values hvalues => ?_ }
    change (u.cache.put s.text _).get? key = some values at hvalues
    rw [Dictionary.get?_put] at hvalues
    split at hvalues
    · rw [← Option.some.inj hvalues]
      exact Column.length_fit _ _ _
    · exact ih.cache key values hvalues

/-- There is a signal, or none, for each bar. -/
theorem Aligned.length_evaluate (h : t.Aligned) (c : Condition) (k : σ) :
    (evaluate source c t k).1.1.length = t.size := by
  obtain ⟨hreads, hsignals⟩ := evaluate_spec source c t k
  have hkept := (h.reads hreads).length_kept
  rw [hsignals _ (keepsOnly_kept _)]
  exact c.length_signals fun s => (hkept s).trans hreads.size_eq

/-- **The evaluation by index** over an aligned table. -/
theorem Aligned.evaluate_indexed (h : t.Aligned) (hsize : t.size < 2 ^ 64) (c : Condition)
    (k : σ) : (Indexed.evaluate source c).run t k =
      ((some (.ofSignals (evaluate source c t k).1.1), (evaluate source c t k).1.2),
        (evaluate source c t k).2) := by
  obtain ⟨columns, hrun, ⟨rfl, -⟩, -⟩ := Indexed.mirrors_evaluate source hsize c t k ⟨rfl, h.cache⟩
  exact hrun

/-! ### Runs -/

theorem isSome_reasons (fired : ExitOverlay.Memory Float) (signals : Signals)
    (flags : List Bool) : (Strategy.reasons fired signals flags).map Option.isSome = flags := by
  refine List.ext_getElem? fun i => ?_
  rw [List.getElem?_map, Strategy.reasons, List.getElem?_mapIdx]
  rcases flags[i]? with _ | on
  · rfl
  · cases on <;> rfl

theorem length_reasons (fired : ExitOverlay.Memory Float) (signals : Signals)
    (flags : List Bool) : (Strategy.reasons fired signals flags).length = flags.length :=
  List.length_mapIdx

/-- Columns written from as many rows as there are bars. -/
theorem Aligned.record (h : t.Aligned) {rows : List TradeRow} (hrows : rows.length = t.size)
    (fired : ExitOverlay.Memory Float) (buy sell : Signals) :
    (Strategy.record t rows fired buy sell).Aligned where
  cache := h.cache
  buy := (List.length_map _).trans hrows
  sell := (List.length_map _).trans hrows
  buySignals := (length_reasons _ _ _).trans ((List.length_map _).trans hrows)
  sellSignals := (length_reasons _ _ _).trans ((List.length_map _).trans hrows)
  long := (List.length_map _).trans hrows
  short := (List.length_map _).trans hrows
  isSome_buySignals := isSome_reasons _ _ _
  isSome_sellSignals := isSome_reasons _ _ _

/-- **A run keeps the columns aligned,** and there is a row for each bar. -/
theorem Aligned.run (h : t.Aligned) (s : Strategy) (k : σ) :
    (s.run source t k).1.2.Aligned ∧ (s.run source t k).1.1.length = t.size := by
  obtain ⟨hbuy, -⟩ := evaluate_spec source s.buyCondition t k
  obtain ⟨hsell, -⟩ := evaluate_spec source s.sellCondition
    (evaluate source s.buyCondition t k).1.2 (evaluate source s.buyCondition t k).2
  have hafter := h.reads hbuy
  have hrows : (s.run source t k).1.1.length = t.size := by
    rw [Strategy.run_state]
    refine (Reconciliation.length_walk _ _ _ _).trans ?_
    rw [List.length_zip, Signals.flags, Signals.flags, List.length_map, List.length_map,
      h.length_evaluate, hafter.length_evaluate, hbuy.size_eq, Nat.min_self]
  refine ⟨?_, hrows⟩
  rw [Strategy.run_state] at hrows ⊢
  exact (hafter.reads hsell).record (hrows.trans (hsell.size_eq.trans hbuy.size_eq).symm) _ _ _

variable {ticker : String} {bars : List (Bar Float)}

theorem Reached.aligned (ht : Reached source ticker bars t) : t.Aligned := by
  induction ht with
  | fresh => exact aligned_ofBars ticker bars
  | evaluate _ c k ih => exact ih.reads (evaluate_spec source c _ k).1
  | run _ s k ih => exact (ih.run s k).1

/-- **Signals and columns stay aligned with the bars,** whatever the source answers. A table
that was reached is aligned. The signals of a condition over it are as many as its bars, and if
their number is a word they may be computed by index: no place is missed and no word wraps
around, the flags and the labels that come out are columns of the table's size, and labels stand
where flags are set. A run leaves the table aligned, with the columns of its rows. -/
theorem reached_aligned (ht : Reached source ticker bars t) :
    t.Aligned ∧
    (∀ c k, (evaluate source c t k).1.2.Aligned ∧
      (evaluate source c t k).1.1.length = t.size ∧
      (t.size < 2 ^ 64 → ∃ columns, (Indexed.evaluate source c).run t k =
          ((some columns, (evaluate source c t k).1.2), (evaluate source c t k).2) ∧
        columns.flags = (evaluate source c t k).1.1.flags ∧
        columns.labels = (evaluate source c t k).1.1 ∧
        columns.flags.length = t.size ∧ columns.labels.length = t.size ∧
        columns.labels.map Option.isSome = columns.flags)) ∧
    ∀ (s : Strategy) k, (s.run source t k).1.2.Aligned ∧ (s.run source t k).1.2.size = t.size ∧
      (s.run source t k).1.1.length = t.size ∧
      (s.run source t k).1.2.buy = (s.run source t k).1.1.map TradeRow.buy ∧
      (s.run source t k).1.2.sell = (s.run source t k).1.1.map TradeRow.sell ∧
      (s.run source t k).1.2.long = (s.run source t k).1.1.map TradeRow.long ∧
      (s.run source t k).1.2.short = (s.run source t k).1.1.map TradeRow.short := by
  have haligned := ht.aligned
  refine ⟨haligned, fun c k => ?_, fun s k => ?_⟩
  · have hlength : (evaluate source c t k).1.1.length = t.size := haligned.length_evaluate c k
    refine ⟨haligned.reads (evaluate_spec source c t k).1, hlength, fun hsize => ?_⟩
    exact ⟨_, haligned.evaluate_indexed hsize c k, rfl, rfl,
      (List.length_map _).trans hlength, hlength, rfl⟩
  · obtain ⟨hafter, hrows⟩ := @Aligned.run σ source t haligned s k
    refine ⟨hafter, ?_, hrows, rfl, rfl, rfl, rfl⟩
    exact (evaluate_spec source s.sellCondition _ _).1.size_eq.trans
      (evaluate_spec source s.buyCondition t k).1.size_eq

end Evaluate

/-- A source that gives a single number, and each time another one. -/
def countingSource : SeriesSource (StateM ℕ) := fun _ _ k => ([Float.ofNat k], k + 1)

/-- Bars of two days. -/
def twoDays : List (Bar Float) :=
  [⟨⟨2024, 1, 1, .refl true⟩, 10, 11, 9, 10, 100⟩, ⟨⟨2024, 1, 2, .refl true⟩, 10, 12, 10, 11, 100⟩]

theorem size_twoDays : (ofBars "A" twoDays).size = 2 := by
  change (Bar.daily twoDays).length = 2
  rw [Bar.daily, Bar.sorted, List.mergeSort_of_pairwise]
  · decide
  · decide

/-- A condition that looks back further than there can be bars. -/
def longAgo : Condition :=
  .after (.all [.trend .up (.price "A" .close) 0, .all []]) 0xFFFFFFFFFFFFFFFF

/-- Over two bars and with two numbers too few, this condition is evaluated by index. -/
theorem reached_aligned_longAgo : ∃ t : BarTable,
    Reached countingSource "A" twoDays t ∧ t.Aligned ∧ t.size = 2 ∧
      ∃ columns, ((Indexed.evaluate countingSource longAgo).run t 5).1.1 = some columns ∧
        columns.flags.length = 2 ∧ columns.labels.length = 2 := by
  have hfresh : Reached countingSource "A" twoDays (ofBars "A" twoDays) := .fresh
  obtain ⟨-, -, hrun⟩ := reached_aligned hfresh
  obtain ⟨-, hsize, -⟩ := hrun Backtest.comparing 0
  obtain ⟨haligned, hevaluate, -⟩ := reached_aligned (hfresh.run Backtest.comparing 0)
  obtain ⟨-, -, hindexed⟩ := hevaluate longAgo 5
  rw [hsize, size_twoDays] at hindexed
  obtain ⟨columns, hcolumns, -, -, hflags, hlabels, -⟩ := hindexed (by decide)
  exact ⟨_, hfresh.run Backtest.comparing 0, haligned, hsize.trans size_twoDays, columns,
    congrArg (fun result => result.1.1) hcolumns, hflags, hlabels⟩

end BarTable

end TradeSignals
