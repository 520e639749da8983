import TradeSignals.Proofs.Signals.Causal
import TradeSignals.Proofs.Trades.History
import TradeSignals.Trades.Backtest

/-!
# A run does not look ahead

A strategy is run over the same stored bars twice, up to a day and up to a later one. The
shorter run sees what the longer one sees up to its last day, and nothing it does before
its last bar can depend on what it does not see: the bars of its table begin the longer
table, and on each of them but the last both runs do the same for the same reason
(`TradeSignals.Backtest.run_no_lookahead`). The last bar is left out because there the
shorter run closes what it holds.

Three things come together. The signals of the shorter run begin those of the longer one,
since no condition looks ahead. The exit rules of the two runs watch different closes, but
answer every question about a bar of the shorter run alike
(`TradeSignals.ExitOverlay.rule_congr`), so the two walks make the same advance to the last
bar. And what the rule writes down later on belongs to later bars
(`TradeSignals.ExitOverlay.LaterOnly`), so the reasons that are given for earlier bars stay
what they were.
-/

namespace TradeSignals

/-- Two columns have the same value for a bar. -/
def Shared {β : Type} (i : ℕ) (xs ys : List β) : Prop :=
  ∃ x, xs[i]? = some x ∧ ys[i]? = some x

theorem Shared.map {β γ : Type} (f : β → γ) {i : ℕ} {xs ys : List β} (h : Shared i xs ys) :
    Shared i (xs.map f) (ys.map f) := by
  obtain ⟨x, hx, hy⟩ := h
  exact ⟨f x, by rw [List.getElem?_map, hx]; rfl, by rw [List.getElem?_map, hy]; rfl⟩

/-! ### The exit rule -/

namespace ExitOverlay

theorem close_congr {x y : ExitOverlay Float} (h : x.closes <+: y.closes) {bar : ℕ}
    (hbar : bar < x.closes.length) : y.close bar = x.close bar := by
  obtain ⟨more, hmore⟩ := h
  rw [close, close, List.getD_eq_getElem?_getD, List.getD_eq_getElem?_getD, ← hmore,
    List.getElem?_append_left hbar]

/-- **The rule answers alike** over closes and over more closes, as long as it is asked
about bars that both have. -/
theorem rule_congr {x y : ExitOverlay Float} (hcloses : x.closes <+: y.closes)
    (hstop : x.stopLoss = y.stopLoss) (hprofit : x.takeProfit = y.takeProfit)
    (m : Memory Float) {held : HeldBar} (hsince : held.since < held.bar)
    (hbar : held.bar < x.closes.length) : x.rule m held = y.rule m held := by
  -- The rule looks at the close of its bar and at the close the position was opened at.
  have hnow := close_congr hcloses hbar
  have hthen := close_congr hcloses (Nat.lt_trans hsince hbar)
  have htracking : x.tracking m held.since = y.tracking m held.since := by
    rw [tracking, tracking, hthen]
  have hcause : x.cause? = y.cause? := by
    funext side t close
    rw [cause?, cause?, hstop, hprofit]
  rw [rule, rule, hstop, hprofit, hnow, htracking, hcause]

/-- What is written down from one memory to another belongs to bars from `bar` on. -/
def LaterOnly (bar : ℕ) (m m' : Memory Float) : Prop :=
  ∃ later, m'.fired = m.fired ++ later ∧ ∀ entry ∈ later, bar ≤ entry.1

theorem LaterOnly.refl (bar : ℕ) (m : Memory Float) : LaterOnly bar m m :=
  ⟨[], (List.append_nil _).symm, fun _ h => absurd h List.not_mem_nil⟩

theorem LaterOnly.trans {bar bar' : ℕ} {m m' m'' : Memory Float} (h : LaterOnly bar m m')
    (h' : LaterOnly bar' m' m'') (hle : bar ≤ bar') : LaterOnly bar m m'' := by
  obtain ⟨first, hfirst, hbar⟩ := h
  obtain ⟨second, hsecond, hbar'⟩ := h'
  refine ⟨first ++ second, by rw [hsecond, hfirst, List.append_assoc], ?_⟩
  rintro entry hentry
  rcases List.mem_append.mp hentry with hentry | hentry
  · exact hbar entry hentry
  · exact Nat.le_trans hle (hbar' entry hentry)

/-- The reason for an earlier bar stays what it was. -/
theorem LaterOnly.causeAt? {bar i : ℕ} {m m' : Memory Float} (h : LaterOnly bar m m')
    (hi : i < bar) : m'.causeAt? i = m.causeAt? i := by
  obtain ⟨later, hlater, hbar⟩ := h
  have hnone : later.lookup i = none := by
    refine List.lookup_eq_none_iff.mpr fun entry hentry => ?_
    exact bne_iff_ne.mpr (Nat.ne_of_lt (Nat.lt_of_lt_of_le hi (hbar entry hentry)))
  rw [Memory.causeAt?, Memory.causeAt?, hlater, List.lookup_append, hnone, Option.or_none]

/-- The rule writes down the bar that it was asked about, or nothing. -/
theorem laterOnly_rule (x : ExitOverlay Float) (m : Memory Float) (held : HeldBar) :
    LaterOnly held.bar m (x.rule m held).2 := by
  rw [rule]
  split
  · exact .refl _ m
  · split
    · exact .refl _ m
    · dsimp only
      split
      next cause _ => exact ⟨[(held.bar, cause)], rfl, by simp⟩
      next => exact .refl _ m

end ExitOverlay

namespace Reconciliation

open ExitOverlay

/-! ### Two walks -/

variable {σ : Type} {sides : PositionType} {rule rule' : ExitRule σ}

/-- A step asks the rule about its own bar and a position that was opened before. -/
theorem step_congr {bar : ℕ} {p : Position} (hp : p.Standing sides bar)
    (h : ∀ s held, held.bar = bar → held.since < bar → rule s held = rule' s held) (s : σ)
    (buy sell : Bool) :
    step sides rule bar p s buy sell = step sides rule' bar p s buy sell := by
  rcases htable : transition? sides p.side? buy sell with _ | ⟨row, next⟩
  · cases p with
    | flat => rw [step_flat htable, step_flat htable]
    | held side since =>
      rw [step_held htable, step_held htable, h s _ rfl hp.2]
  · rw [step_of_some htable, step_of_some htable]

/-- **Rules that answer alike** about the bars of an advance make the same advance. -/
theorem advance_congr {bars : List (Bool × Bool)} {bar : ℕ} {p : Position}
    (hp : p.Standing sides bar)
    (h : ∀ s held, held.since < held.bar → held.bar < bar + bars.length →
      rule s held = rule' s held) (s : σ) :
    advance sides rule bar p s bars = advance sides rule' bar p s bars := by
  -- A position that stands was opened before its bar, so both closes the rule looks at are
  -- there.
  induction bars generalizing bar p s with
  | nil => rfl
  | cons x rest ih =>
    obtain ⟨buy, sell⟩ := x
    have hlt : bar < bar + ((buy, sell) :: rest).length := Nat.lt_add_of_pos_right (Nat.succ_pos _)
    have hstep : step sides rule bar p s buy sell = step sides rule' bar p s buy sell :=
      step_congr hp (fun s held hbar hsince => h s held (hbar ▸ hsince) (hbar ▸ hlt)) s buy sell
    have hlater : ∀ s held, held.since < held.bar → held.bar < bar + 1 + rest.length →
        rule s held = rule' s held := by
      intro s held hsince hbar
      refine h s held hsince ?_
      rw [List.length_cons]
      omega
    have hnext := (move_step rule hp s buy sell).standing hp
    have hrest := ih hnext hlater (step sides rule bar p s buy sell).2.2
    rw [advance_cons, advance_cons, ← hstep, hrest]

/-- Two overlays make the same advance over bars whose closes both of them have. -/
theorem advance_overlay {x y : ExitOverlay Float} (hcloses : x.closes <+: y.closes)
    (hstop : x.stopLoss = y.stopLoss) (hprofit : x.takeProfit = y.takeProfit)
    {bars : List (Bool × Bool)} (hlength : bars.length ≤ x.closes.length) (m : Memory Float) :
    advance sides x.rule 0 .flat m bars = advance sides y.rule 0 .flat m bars := by
  refine advance_congr (p := .flat) trivial (fun m held hsince hheld => ?_) m
  rw [Nat.zero_add] at hheld
  exact rule_congr hcloses hstop hprofit m hsince (Nat.lt_of_lt_of_le hheld hlength)

/-- A walk with an overlay writes down its own bars only. -/
theorem laterOnly_walk (x : ExitOverlay Float) (bars : List (Bool × Bool)) (bar : ℕ)
    (p : Position) (m : Memory Float) :
    LaterOnly bar m (walk sides x.rule bar p m bars).2 := by
  have hstep : ∀ (bar : ℕ) (p : Position) (m : Memory Float) (buy sell : Bool),
      LaterOnly bar m (step sides x.rule bar p m buy sell).2.2 := by
    intro bar p m buy sell
    rcases htable : transition? sides p.side? buy sell with _ | ⟨row, next⟩
    · cases p with
      | flat =>
        rw [step_flat htable]
        exact .refl bar m
      | held side since =>
        rw [step_held htable]
        split <;> exact laterOnly_rule x m _
    · rw [step_of_some htable]
      exact .refl bar m
  -- Each step writes down its own bar at most, and the bars only go up.
  induction bars generalizing bar p m with
  | nil => exact .refl bar m
  | cons y rest ih =>
    obtain ⟨buy, sell⟩ := y
    rcases rest with _ | ⟨z, rest⟩
    · exact hstep bar p m buy sell
    · rw [walk_cons (List.cons_ne_nil z rest)]
      exact (hstep bar p m buy sell).trans (ih _ _ _) (Nat.le_succ bar)

/-- **Reconciling does not look ahead:** before the last bar of the shorter run both runs
have the same rows, and the same reasons for leaving a position. -/
theorem withExits_shared (sides : PositionType) {x y : ExitOverlay Float}
    (hcloses : x.closes <+: y.closes) (hstop : x.stopLoss = y.stopLoss)
    (hprofit : x.takeProfit = y.takeProfit) {buy buy' sell sell' : List Bool}
    (hbuy : buy <+: buy') (hsell : sell <+: sell')
    (hlength : (buy.zip sell).length ≤ x.closes.length) {i : ℕ}
    (hi : i + 1 < (buy.zip sell).length) :
    Shared i (withExits sides x.rule .start buy sell).1
        (withExits sides y.rule .start buy' sell').1 ∧
      (withExits sides x.rule .start buy sell).2.causeAt? i =
        (withExits sides y.rule .start buy' sell').2.causeAt? i := by
  have hbars : buy.zip sell <+: buy'.zip sell' := prefix_zipWith Prod.mk hbuy hsell
  rw [withExits, withExits]
  generalize buy.zip sell = bars at hbars hlength hi
  generalize buy'.zip sell' = bars' at hbars
  obtain ⟨k, hk⟩ : ∃ k, bars.length = k + 1 := ⟨bars.length - 1, by omega⟩
  have hlast : k < bars.length := by omega
  have hik : i < k := by omega
  have hlast' : k < bars'.length := Nat.lt_of_lt_of_le hlast hbars.length_le
  have htake : bars'.take k = bars.take k := take_of_prefix_le hbars (Nat.le_of_lt hlast)
  -- Both walks make the same advance to the last bar of the shorter one.
  have hadvance : advance sides x.rule 0 .flat .start (bars.take k) =
      advance sides y.rule 0 .flat .start (bars'.take k) := by
    rw [htake]
    refine advance_overlay hcloses hstop hprofit ?_ _
    rw [List.length_take_of_le (Nat.le_of_lt hlast)]
    omega
  constructor
  · have hi' : i < (advance sides x.rule 0 .flat .start (bars.take k)).1.length := by
      rw [length_advance_take hlast]
      omega
    refine ⟨_, (getElem?_walk_of_lt hik hlast _ _).trans (List.getElem?_eq_getElem hi'), ?_⟩
    rw [getElem?_walk_of_lt hik hlast', ← hadvance, List.getElem?_eq_getElem hi']
  · -- What is written down from there on belongs to bars from the last one on.
    rw [walk_split hlast, walk_split hlast', ← hadvance]
    exact ((laterOnly_walk x _ _ _ _).causeAt? hik).trans
      ((laterOnly_walk y _ _ _ _).causeAt? hik).symm

end Reconciliation

/-! ### What a run computes -/

/-- Running a strategy over a table: its signals, their reconciliation, and the record. -/
theorem Strategy.run_eq (source : SeriesSource Id) (s : Strategy) (t : BarTable) :
    s.run source t =
      let buy := BarTable.evaluate source s.buyCondition t
      let sell := BarTable.evaluate source s.sellCondition buy.2
      let done := Reconciliation.withExits s.positionType
        (s.exits (Bar.closes sell.2.bars)).rule .start buy.1.flags sell.1.flags
      (done.1, record sell.2 done.1 done.2 buy.1 sell.1) :=
  rfl

namespace Backtest

open SeriesSource

/-- The bars of tickers between two days, each in order of date. -/
def registered (stored : String → List (Bar Float)) (start finish : Date) (others : TickerBars)
    (tickers : List String) : TickerBars :=
  tickers.foldl (fun others ticker => register others ticker
    (Bar.between start finish (stored ticker))) others

variable {stored : String → List (Bar Float)} {start finish : Date}

theorem fetchAll_ofBars (stored : String → List (Bar Float)) (start finish : Date)
    (announce : String → Id Unit) (others : TickerBars) (tickers : List String) :
    (fetchAll announce (fetch (.ofBars stored)) start finish others tickers).run =
      (.ok (registered stored start finish others tickers) : Except Failure TickerBars) := by
  induction tickers generalizing others with
  | nil => rfl
  | cons ticker rest ih => exact ih _

/-- What is found among the bars of tickers. -/
theorem get?_registered (others : TickerBars) (tickers : List String) (ticker : String) :
    (registered stored start finish others tickers).get? ticker =
      if ticker ∈ tickers then some (Bar.sorted (Bar.between start finish (stored ticker)))
      else others.get? ticker := by
  induction tickers generalizing others with
  | nil => rfl
  | cons first rest ih =>
    refine (ih _).trans ?_
    -- A ticker that is named again later is found with the same bars.
    by_cases hrest : ticker ∈ rest
    · rw [if_pos hrest, if_pos (List.mem_cons_of_mem _ hrest)]
    · rw [if_neg hrest]
      show (others.put first _).get? ticker = _
      rw [Dictionary.get?_put]
      by_cases hfirst : ticker = first
      · rw [if_pos hfirst, if_pos (List.mem_cons.mpr (.inl hfirst)), hfirst]
      · rw [if_neg hfirst, if_neg (by simp [hfirst, hrest])]

theorem run_bind_of_ok {β γ : Type} {x : ExceptT Failure Id β} {a : β} (h : x.run = .ok a)
    (f : β → ExceptT Failure Id γ) : (x >>= f).run = (f a).run := by
  show (ExceptT.bindCont f x.run : Id _) = _
  rw [h]
  rfl

/-- The tables of a run over stored bars, if there are any. -/
theorem run_ofBars (announce : String → Id Unit) (s : Strategy) :
    (run announce (.ofBars stored) s start finish).run =
      if (Bar.between start finish (stored s.ticker)).isEmpty then .error (.noData s.ticker)
      else
        let source := SeriesSource.ofBars (m := Id)
          (registered stored start finish .empty s.otherTickers)
        let done := s.run source (.ofBars s.ticker (Bar.between start finish (stored s.ticker)))
        (.ok (done.2, done.1) : Except Failure (BarTable × List TradeRow)) := by
  have hbars : (fetch (m := Id) (.ofBars stored) s.ticker start finish).run =
      .ok (Bar.between start finish (stored s.ticker)) := rfl
  have hothers := fetchAll_ofBars stored start finish announce .empty s.otherTickers
  refine (run_bind_of_ok (a := ()) rfl _).trans ((run_bind_of_ok hbars _).trans ?_)
  by_cases hempty : (Bar.between start finish (stored s.ticker)).isEmpty = true
  · rw [if_pos hempty, if_pos hempty]
    rfl
  · rw [if_neg hempty, if_neg hempty]
    exact (run_bind_of_ok hothers _).trans rfl

/-- What a longer run finds on other tickers continues what a shorter one finds. -/
theorem continued_registered (stored : String → List (Bar Float)) (start : Date)
    {later : Date} (h : finish ≤ later) (tickers : List String) {days : List Date}
    (hdays : ∀ day ∈ days, day ≤ finish) :
    Continued days (registered stored start finish .empty tickers)
      (registered stored start later .empty tickers) := by
  intro ticker
  rw [get?_registered, get?_registered]
  by_cases hticker : ticker ∈ tickers
  · rw [if_pos hticker, if_pos hticker]
    refine .inr ⟨_, _, rfl, congrArg some (Bar.sorted_between h _), ?_⟩
    -- The days of the shorter table do not go beyond its end, and the bars that are new do.
    rintro day hday bar hbar rfl
    exact (Bar.mem_beyond.mp hbar).2 (hdays _ hday)
  · rw [if_neg hticker, if_neg hticker]
    exact .inl ⟨rfl, rfl⟩

end Backtest

/-! ### Two runs -/

/-- Two tables say the same about a bar: what is bought and sold there, why, and how the
position changes. -/
structure BarTable.SharedAt (i : ℕ) (t t' : BarTable) : Prop where
  /-- The same is bought. -/
  buy : Shared i t.buy t'.buy
  /-- The same is sold. -/
  sell : Shared i t.sell t'.sell
  /-- It is bought for the same reason. -/
  buySignals : Shared i t.buySignals t'.buySignals
  /-- It is sold for the same reason. -/
  sellSignals : Shared i t.sellSignals t'.sellSignals
  /-- The long side changes in the same way. -/
  long : Shared i t.long t'.long
  /-- The short side changes in the same way. -/
  short : Shared i t.short t'.short

namespace Strategy

/-- The same reasons, if the same is done after the same signals and exits. -/
theorem shared_reasons {fired fired' : ExitOverlay.Memory Float} {signals signals' : Signals}
    {flags flags' : List Bool} {i : ℕ} (hfired : fired.causeAt? i = fired'.causeAt? i)
    (hsignals : signals[i]? = signals'[i]?) (hflags : Shared i flags flags') :
    Shared i (reasons fired signals flags) (reasons fired' signals' flags') := by
  obtain ⟨on, hon, hon'⟩ := hflags
  refine ⟨if on then
      some (((fired'.causeAt? i).map ExitCause.label).getD
        ((signals'[i]?.join).getD endOfDataLabel))
    else none, ?_, ?_⟩
  · rw [reasons, List.getElem?_mapIdx, hon, Option.map_some, hfired, hsignals]
  · rw [reasons, List.getElem?_mapIdx, hon', Option.map_some]

section SideBySide

variable {bars bars' : List (Bar Float)} {t t' : BarTable}

/-- The records of two runs over tables side by side, from signals of which the shorter run
has the first. -/
theorem sharedAt_record (s : Strategy) (hbars : bars <+: bars')
    (ht : BarTable.Paired bars bars' t t') {buy buy' sell sell' : Signals}
    (hbuy : Grown bars.length bars'.length buy buy')
    (hsell : Grown bars.length bars'.length sell sell') {i : ℕ} (hi : i + 1 < bars.length) :
    let done := Reconciliation.withExits s.positionType (s.exits (Bar.closes t.bars)).rule .start
      buy.flags sell.flags
    let done' := Reconciliation.withExits s.positionType (s.exits (Bar.closes t'.bars)).rule .start
      buy'.flags sell'.flags
    (record t done.1 done.2 buy sell).SharedAt i (record t' done'.1 done'.2 buy' sell') := by
  have hbuyFlags : Grown bars.length bars'.length buy.flags buy'.flags := hbuy.map _
  have hsellFlags : Grown bars.length bars'.length sell.flags sell'.flags := hsell.map _
  -- There is a flag for each bar, so the two reconciliations end with the last bars.
  have hcount := (hbuyFlags.zip hsellFlags).length_left
  have hcloses : Bar.closes t.bars <+: Bar.closes t'.bars := by
    rw [ht.bars_left, ht.bars_right]
    exact hbars.map _
  have hlength : (Bar.closes t.bars).length = bars.length := by
    rw [ht.bars_left, Bar.closes, List.length_map]
  obtain ⟨hrows, hfired⟩ := Reconciliation.withExits_shared s.positionType
    (x := s.exits (Bar.closes t.bars)) (y := s.exits (Bar.closes t'.bars)) hcloses rfl rfl
    hbuyFlags.initial hsellFlags.initial (Nat.le_of_eq (hcount.trans hlength.symm))
    (Nat.lt_of_lt_of_eq hi hcount.symm)
  have hlt : i < bars.length := Nat.lt_of_succ_lt hi
  exact
    { buy := hrows.map TradeRow.buy
      sell := hrows.map TradeRow.sell
      buySignals := shared_reasons hfired (hbuy.getElem?_eq hlt) (hrows.map TradeRow.buy)
      sellSignals := shared_reasons hfired (hsell.getElem?_eq hlt) (hrows.map TradeRow.sell)
      long := hrows.map TradeRow.long
      short := hrows.map TradeRow.short }

/-- **Two runs of a strategy** over tables side by side say the same about every bar but
the last of the shorter table. -/
theorem sharedAt_run (s : Strategy) (hbars : bars <+: bars') {source source' : SeriesSource Id}
    (hsource : BarTable.SourcesAgree bars bars' source source')
    (ht : BarTable.Paired bars bars' t t') :
    (s.run source t).2.bars = bars ∧ (s.run source' t').2.bars = bars' ∧
      ∀ i, i + 1 < bars.length → (s.run source t).2.SharedAt i (s.run source' t').2 := by
  obtain ⟨hbuy, hafter⟩ := BarTable.agrees_evaluate hbars hsource s.buyCondition t t' ht
  obtain ⟨hsell, hdone⟩ := BarTable.agrees_evaluate hbars hsource s.sellCondition _ _ hafter
  rw [run_eq, run_eq]
  exact ⟨hdone.bars_left, hdone.bars_right, fun i hi =>
    sharedAt_record s hbars hdone hbuy hsell hi⟩

end SideBySide

end Strategy

namespace Backtest

open BarTable

/-- The sources of two runs agree. -/
theorem sourcesAgree_registered {stored : String → List (Bar Float)} {start finish later : Date}
    (h : finish ≤ later) (bars : List (Bar Float)) (tickers : List String) :
    SourcesAgree (Bar.daily (Bar.between start finish bars))
      (Bar.daily (Bar.between start later bars))
      (.ofBars (registered stored start finish .empty tickers))
      (.ofBars (registered stored start later .empty tickers)) := by
  intro t t' ht s
  have hbars : t.bars <+: t'.bars := by
    rw [ht.bars_left, ht.bars_right]
    exact Bar.daily_between h bars
  have hdays : ∀ day ∈ t.dates, day ≤ finish := by
    rintro day hday
    rw [dates, ht.bars_left] at hday
    obtain ⟨bar, hbar, rfl⟩ := List.mem_map.mp hday
    exact Bar.le_of_mem_daily_between hbar
  have hgrown := SeriesSource.grown_ofBars ht.ticker hbars
    (continued_registered stored start h tickers hdays) s
  rwa [size, size, ht.bars_left, ht.bars_right] at hgrown

/-- Two runs that succeed: the bars of their tables, and what the tables share. -/
theorem shared_of_run {announce : String → Id Unit} {stored : String → List (Bar Float)}
    {s : Strategy} {start finish later : Date} (h : finish ≤ later) {t t' : BarTable}
    {rows rows' : List TradeRow}
    (hrun : (run announce (.ofBars stored) s start finish).run = Except.ok (t, rows))
    (hrun' : (run announce (.ofBars stored) s start later).run = Except.ok (t', rows')) :
    t.bars = Bar.daily (Bar.between start finish (stored s.ticker)) ∧
      t'.bars = Bar.daily (Bar.between start later (stored s.ticker)) ∧
      ∀ i, i + 1 < (Bar.daily (Bar.between start finish (stored s.ticker))).length →
        SharedAt i t t' := by
  rw [run_ofBars] at hrun hrun'
  split at hrun
  next => cases hrun
  split at hrun'
  next => cases hrun'
  cases hrun
  cases hrun'
  -- The two tables begin side by side, with nothing kept in either.
  have ht : Paired _ _ (.ofBars s.ticker (Bar.between start finish (stored s.ticker)))
      (.ofBars s.ticker (Bar.between start later (stored s.ticker))) :=
    ⟨rfl, rfl, rfl, fun _ => .inl ⟨rfl, rfl⟩⟩
  exact s.sharedAt_run (Bar.daily_between h (stored s.ticker))
    (sourcesAgree_registered h (stored s.ticker) s.otherTickers) ht

/-- **No look-ahead.** A strategy is run over the same stored bars up to a day and up to a
later one. The bars of the first table begin those of the second, and both tables say the
same about every bar but the last of the first. -/
theorem run_no_lookahead (announce : String → Id Unit) (stored : String → List (Bar Float))
    (s : Strategy) (start : Date) {finish later : Date} (h : finish ≤ later)
    {t t' : BarTable} {rows rows' : List TradeRow}
    (hrun : (run announce (.ofBars stored) s start finish).run = Except.ok (t, rows))
    (hrun' : (run announce (.ofBars stored) s start later).run = Except.ok (t', rows')) :
    t.bars <+: t'.bars ∧ ∀ i, i + 1 < t.bars.length → SharedAt i t t' := by
  obtain ⟨hbars, hbars', hshared⟩ := shared_of_run h hrun hrun'
  rw [hbars, hbars']
  exact ⟨Bar.daily_between h (stored s.ticker), hshared⟩

/-- A few bars of two tickers, not in order, and two of them for one day. -/
def fewBars (ticker : String) : List (Bar Float) :=
  if ticker = "A" then
    [⟨⟨2024, 1, 3, by decide⟩, 12, 13, 11, 12, 100⟩,
      ⟨⟨2024, 1, 1, by decide⟩, 10, 11, 9, 10, 100⟩,
      ⟨⟨2024, 1, 2, by decide⟩, 10, 12, 10, 11, 100⟩,
      ⟨⟨2024, 1, 2, by decide⟩, 10, 12, 10, 12, 300⟩]
  else
    [⟨⟨2024, 1, 2, by decide⟩, 5, 5, 5, 5, 100⟩, ⟨⟨2024, 1, 1, by decide⟩, 6, 6, 6, 6, 100⟩]

/-- A strategy that compares two tickers and has a trailing stop. -/
def comparing : Strategy where
  ticker := "A"
  positionType := .long
  buyCondition := .comparison .above (.price "A" .close) (.price "B" .close)
  sellCondition := .trend .down (.windowed .sma "A" 2) 1
  startDate := none
  endDate := none
  stopLoss := some ⟨.trailing, 5⟩
  takeProfit := none
  interval := .oneDay
  period := none
  initialCapital := 10000
  orderSize := .contracts 1
  tradeCommissions := none

/-- The strategy over these bars, from the first of January on. -/
def comparingRun (finish : Date) : Except Failure (BarTable × List TradeRow) :=
  (run (m := Id) (fun _ => ()) (.ofBars fewBars) comparing ⟨2024, 1, 1, by decide⟩ finish).run

/-- Two days and three days of these bars give tables that say the same about the first
day. -/
theorem run_no_lookahead_comparing :
    (⟨2024, 1, 2, by decide⟩ : Date) ≤ ⟨2024, 1, 3, by decide⟩ ∧
      ∃ t rows t' rows', comparingRun ⟨2024, 1, 2, by decide⟩ = .ok (t, rows) ∧
        comparingRun ⟨2024, 1, 3, by decide⟩ = .ok (t', rows') ∧
        t.bars.length = 2 ∧ t.bars <+: t'.bars ∧ SharedAt 0 t t' := by
  have hle : (⟨2024, 1, 2, by decide⟩ : Date) ≤ ⟨2024, 1, 3, by decide⟩ := by decide
  have htwo : (comparingRun ⟨2024, 1, 2, by decide⟩).toOption.isSome = true := by decide +kernel
  have hthree : (comparingRun ⟨2024, 1, 3, by decide⟩).toOption.isSome = true := by decide +kernel
  rcases hrun : comparingRun ⟨2024, 1, 2, by decide⟩ with e | ⟨t, rows⟩
  · rw [hrun] at htwo
    cases htwo
  rcases hrun' : comparingRun ⟨2024, 1, 3, by decide⟩ with e | ⟨t', rows'⟩
  · rw [hrun'] at hthree
    cases hthree
  -- Up to the second day the bars are in order as they are stored.
  have hlength : t.bars.length = 2 := by
    rw [(shared_of_run hle hrun hrun').1, Bar.daily, Bar.sorted, List.mergeSort_of_pairwise]
    · decide
    · decide
  obtain ⟨hbars, hshared⟩ := run_no_lookahead _ _ _ _ hle hrun hrun'
  exact ⟨hle, t, rows, t', rows', rfl, rfl, hlength, hbars, hshared 0 (by omega)⟩

end Backtest

end TradeSignals
