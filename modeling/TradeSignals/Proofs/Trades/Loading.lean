import Mathlib.Data.String.Basic
import TradeSignals.Proofs.Trades.ReadOnce
import TradeSignals.Proofs.Trades.Served
import TradeSignals.Proofs.Validation.Accepted

/-!
# What is loaded for a run

The numbers of a ticker that was not loaded are gaps, and gaps look like numbers that are missing
for a good reason. So it matters that what is loaded for a run is what its strategy reads, and that
three traversals go together: the one that collects the tickers, the one that evaluates the
conditions, and the choice of the bars that a series is computed from.

What is loaded is said by the requests for bars, each with its answer
(`TradeSignals.Backtest.Loaded`). The own ticker comes first, then the others in ascending order
(`TradeSignals.Strategy.ReadsFrom`), and the first failure is the result. If there is none, the
strategy is run over what was loaded, and nothing that it reads is not there
(`TradeSignals.Backtest.Evaluated`). All this holds of whatever loads the bars, in whatever state
it is (`TradeSignals.Backtest.runLoading_loaded`).

To say what is asked for, the loader is made to record it (`TradeSignals.BarLoader.recording`). A
computation that asks for bars is then compared with itself over the loader that does not record
(`TradeSignals.Backtest.Asks`).
-/

namespace TradeSignals

/-! ### Tickers -/

/-- A character that neither begins nor continues a ticker is not in one. -/
theorem Ticker.not_mem_of_isValid {text : String} (h : isValid text = true) {c : Char}
    (hc : (begins c || continues c) = false) : c ∉ text.toList := by
  intro hmem
  unfold isValid at h
  rcases hchars : text.toList with _ | ⟨first, rest⟩
  · rw [hchars] at hmem
    cases hmem
  · rw [hchars] at h hmem
    obtain ⟨h, hrest⟩ := Bool.and_eq_true_iff.1 h
    obtain ⟨-, hfirst⟩ := Bool.and_eq_true_iff.1 h
    obtain ⟨hbegins, hcontinues⟩ := Bool.or_eq_false_iff.1 hc
    rcases List.mem_cons.1 hmem with rfl | hmem
    · exact Bool.false_ne_true (hbegins.symm.trans hfirst)
    · exact Bool.false_ne_true (hcontinues.symm.trans (List.all_eq_true.1 hrest c hmem))

/-! ### What a strategy reads -/

/-- **A condition mentions a series** somewhere, however deep. -/
inductive Condition.Mentions : Condition → Series → Prop where
  /-- The first series of a comparison. -/
  | first {relation : Relation} {a b : Series} : Mentions (.comparison relation a b) a
  /-- The second one. -/
  | second {relation : Relation} {a b : Series} : Mentions (.comparison relation a b) b
  /-- A series of a condition that has to hold with others. -/
  | all {c : Condition} {cs : List Condition} {x : Series} (hc : c ∈ cs) (hx : Mentions c x) :
      Mentions (.all cs) x
  /-- A series of one of several conditions. -/
  | any {c : Condition} {cs : List Condition} {x : Series} (hc : c ∈ cs) (hx : Mentions c x) :
      Mentions (.any cs) x
  /-- A series of a condition that held before. -/
  | after {c : Condition} {days : UInt64} {x : Series} (hx : Mentions c x) :
      Mentions (.after c days) x
  /-- The series that has changed over some bars. -/
  | changeOver {x : Series} {percent : Float} {days : UInt64} :
      Mentions (.changeOver x percent days) x
  /-- The series that has changed over one bar. -/
  | change {x : Series} {percent : Float} : Mentions (.change x percent) x
  /-- The series that has been going one way. -/
  | trend {direction : Direction} {x : Series} {days : UInt64} :
      Mentions (.trend direction x days) x

/-- **No series is missed:** the series of a condition are those that it mentions. -/
theorem Condition.mem_series_iff {c : Condition} {x : Series} : x ∈ c.series ↔ c.Mentions x := by
  constructor
  · intro h
    induction c using Condition.induct with
    | comparison relation first second =>
      rcases List.mem_cons.1 h with rfl | h
      · exact .first
      · obtain rfl := List.mem_singleton.1 h
        exact .second
    | all cs ih =>
      rw [series, seriesOfAll_eq, List.mem_flatMap] at h
      obtain ⟨c, hc, hx⟩ := h
      exact .all hc (ih c hc hx)
    | any cs ih =>
      rw [series, seriesOfAll_eq, List.mem_flatMap] at h
      obtain ⟨c, hc, hx⟩ := h
      exact .any hc (ih c hc hx)
    | after base days ih => exact .after (ih h)
    | changeOver s percent days =>
      obtain rfl := List.mem_singleton.1 h
      exact .changeOver
    | change s percent =>
      obtain rfl := List.mem_singleton.1 h
      exact .change
    | trend direction s days =>
      obtain rfl := List.mem_singleton.1 h
      exact .trend
  · intro h
    induction h with
    | first => exact List.mem_cons_self
    | second => exact List.mem_cons_of_mem _ (List.mem_singleton_self _)
    | all hc _ ih | any hc _ ih =>
      rw [series, seriesOfAll_eq]
      exact List.mem_flatMap.2 ⟨_, hc, ih⟩
    | after _ ih => exact ih
    | changeOver | change | trend => exact List.mem_singleton_self _

/-- Without its repetitions an ascending list ascends strictly. -/
theorem pairwise_lt_eraseDups (tickers : List String) (h : tickers.Pairwise (· ≤ ·)) :
    tickers.eraseDups.Pairwise (· < ·) := by
  match tickers with
  | [] => exact .nil
  | first :: rest =>
    obtain ⟨hfirst, hrest⟩ := List.pairwise_cons.1 h
    have hlength : (rest.filter (!· == first)).length < rest.length + 1 :=
      Nat.lt_succ_of_le (List.length_filter_le _ _)
    rw [List.eraseDups_cons]
    refine List.pairwise_cons.2 ⟨fun ticker hticker => ?_,
      pairwise_lt_eraseDups _ (hrest.sublist List.filter_sublist)⟩
    obtain ⟨hmem, hne⟩ := List.mem_filter.1 (List.mem_eraseDups.1 hticker)
    exact lt_of_le_of_ne (hfirst ticker hmem) fun heq => by simp [heq] at hne
termination_by tickers.length

namespace Strategy

/-- **The tickers that a strategy reads apart from its own,** each once and in ascending order. -/
structure ReadsFrom (s : Strategy) (tickers : List String) : Prop where
  /-- They ascend. -/
  ascending : tickers.Pairwise (· < ·)
  /-- They are those of the series that one of the two conditions mentions. -/
  mem_iff : ∀ ticker, ticker ∈ tickers ↔ ticker ≠ s.ticker ∧
    ∃ x, (s.buyCondition.Mentions x ∨ s.sellCondition.Mentions x) ∧ x.ticker? = some ticker

theorem readsFrom_otherTickers (s : Strategy) : s.ReadsFrom s.otherTickers where
  ascending := by
    refine pairwise_lt_eraseDups _ ?_
    have h := @List.pairwise_mergeSort String (fun a b => decide (a ≤ b))
      (fun a b c hab hbc => decide_eq_true
        (le_trans (of_decide_eq_true hab) (of_decide_eq_true hbc)))
      (fun a b => by simpa using le_total a b)
      (((s.buyCondition.series ++ s.sellCondition.series).filterMap Series.ticker?).filter
        (· ≠ s.ticker))
    exact h.imp of_decide_eq_true
  mem_iff ticker := by
    simp only [otherTickers, List.mem_eraseDups, List.mem_mergeSort, List.mem_filter,
      List.mem_filterMap, List.mem_append, Condition.mem_series_iff, decide_eq_true_eq, ne_eq]
    exact and_comm

end Strategy

/-! ### Requests -/

/-- A request for the bars of a ticker from one day to another, and the answer to it. -/
structure Request where
  /-- The ticker. -/
  ticker : String
  /-- The first day. -/
  start : Date
  /-- The last day. -/
  finish : Date
  /-- What is answered. -/
  answer : Except Failure (List (Bar Float))

/-- A loader that also keeps what it was asked for and what it answered, in order. -/
def BarLoader.recording {κ : Type} (load : BarLoader (StateM κ)) :
    BarLoader (StateM (κ × List Request)) := fun ticker start finish (k, asked) =>
  let (answer, k) := load ticker start finish k
  (answer, k, asked ++ [⟨ticker, start, finish, answer⟩])

namespace Backtest

open SeriesSource

section Asks

variable {κ β γ : Type}

/-- What has nothing to do with the loader is not kept. -/
def aside (x : StateM κ β) : StateM (κ × List Request) β := fun (k, asked) =>
  let (b, k) := x k
  (b, k, asked)

/-- **A computation that asks for bars:** compared with itself over the loader that records, and
with what is to be known of its requests and its result. -/
def Asks (Q : List Request → Except Failure β → Prop) (x : ExceptT Failure (StateM κ) β)
    (y : ExceptT Failure (StateM (κ × List Request)) β) : Prop :=
  ∀ k asked, ∃ more, y (k, asked) = ((x k).1, (x k).2, asked ++ more) ∧ Q more (x k).1

variable {Q : List Request → Except Failure β → Prop} {S : List Request → Except Failure γ → Prop}
  {R : β → List Request → Except Failure γ → Prop}

theorem Asks.pure {a : β} (h : Q [] (.ok a)) :
    Asks Q (Pure.pure a : ExceptT Failure (StateM κ) β) (Pure.pure a) :=
  fun _ asked => ⟨[], by rw [List.append_nil]; rfl, h⟩

theorem Asks.throw {fault : Failure} (h : Q [] (.error fault)) :
    Asks Q (MonadExcept.throw fault : ExceptT Failure (StateM κ) β) (MonadExcept.throw fault) :=
  fun _ asked => ⟨[], by rw [List.append_nil]; rfl, h⟩

/-- One computation after another, unless the first one fails. -/
theorem Asks.bind {x : ExceptT Failure (StateM κ) β}
    {y : ExceptT Failure (StateM (κ × List Request)) β} {f : β → ExceptT Failure (StateM κ) γ}
    {g : β → ExceptT Failure (StateM (κ × List Request)) γ} (hx : Asks Q x y)
    (hf : ∀ a, Asks (R a) (f a) (g a))
    (hfailed : ∀ more fault, Q more (.error fault) → S more (.error fault))
    (hdone : ∀ first a second r, Q first (.ok a) → R a second r → S (first ++ second) r) :
    Asks S (x >>= f) (y >>= g) := by
  intro k asked
  obtain ⟨first, hrecorded, hQ⟩ := hx k asked
  have hplain : (x >>= f) k = ExceptT.bindCont f (x k).1 (x k).2 := rfl
  have hrecording : (y >>= g) (k, asked) =
      ExceptT.bindCont g (y (k, asked)).1 (y (k, asked)).2 := rfl
  rw [hplain, hrecording, hrecorded]
  rcases hresult : (x k).1 with fault | a
  · rw [hresult] at hQ
    exact ⟨first, rfl, hfailed _ _ hQ⟩
  · rw [hresult] at hQ
    obtain ⟨second, hrecorded', hR⟩ := hf a (x k).2 (asked ++ first)
    refine ⟨first ++ second, ?_, hdone _ _ _ _ hQ hR⟩
    rw [← List.append_assoc]
    exact hrecorded'

/-- What is done aside before a computation makes no difference to its requests. -/
theorem Asks.after_aside {x : ExceptT Failure (StateM κ) γ}
    {y : ExceptT Failure (StateM (κ × List Request)) γ} (h : Asks S x y) (done : StateM κ β) :
    Asks S ((liftM done : ExceptT Failure (StateM κ) β) >>= fun _ => x)
      ((liftM (aside done) : ExceptT Failure (StateM (κ × List Request)) β) >>= fun _ => y) :=
  fun k asked => h (done k).2 asked

/-- **A request is kept** where it is made. -/
theorem asks_load (load : BarLoader (StateM κ)) (ticker : String) (start finish : Date) :
    Asks (fun more r => more = [⟨ticker, start, finish, r⟩]) (load ticker start finish)
      (load.recording ticker start finish) :=
  fun _ _ => ⟨_, rfl, rfl⟩

end Asks

/-! ### The other tickers -/

/-- A request that was answered with bars. -/
def answered (start finish : Date) (loaded : String × List (Bar Float)) : Request :=
  ⟨loaded.1, start, finish, .ok loaded.2⟩

/-- The bars of tickers, together with those that were loaded one after the other. -/
def registerAll (others : TickerBars) (loaded : List (String × List (Bar Float))) : TickerBars :=
  loaded.foldl (fun others p => register others p.1 p.2) others

/-- What was loaded is there. -/
theorem isSome_get?_registerAll {others : TickerBars} {loaded : List (String × List (Bar Float))}
    {ticker : String}
    (h : (others.get? ticker).isSome = true ∨ ticker ∈ loaded.map Prod.fst) :
    ((registerAll others loaded).get? ticker).isSome = true := by
  induction loaded generalizing others with
  | nil => exact h.resolve_right List.not_mem_nil
  | cons first rest ih =>
    refine ih ?_
    show ((others.put first.1 _).get? ticker).isSome = true ∨ _
    rw [Dictionary.get?_put]
    split
    · exact .inl rfl
    · next hne =>
      rcases h with h | h
      · exact .inl h
      · exact .inr ((List.mem_cons.1 h).resolve_left hne)

/-- **The tickers are loaded one after the other:** all of them, or those before the first one that
cannot be loaded, with which it ends. -/
inductive Fetched (start finish : Date) (others : TickerBars) (tickers : List String) :
    List Request → Except Failure TickerBars → Prop where
  /-- All of them are loaded. -/
  | all {loaded : List (String × List (Bar Float))} (htickers : tickers = loaded.map Prod.fst) :
      Fetched start finish others tickers (loaded.map (answered start finish))
        (.ok (registerAll others loaded))
  /-- One of them cannot be loaded. -/
  | failed {loaded : List (String × List (Bar Float))} {ticker : String} {rest : List String}
      {fault : Failure} (htickers : tickers = loaded.map Prod.fst ++ ticker :: rest) :
      Fetched start finish others tickers
        (loaded.map (answered start finish) ++ [⟨ticker, start, finish, .error fault⟩])
        (.error fault)

/-- One more ticker in front. -/
theorem Fetched.cons {start finish : Date} {others : TickerBars} {ticker : String}
    {tickers : List String} {bars : List (Bar Float)} {more : List Request}
    {r : Except Failure TickerBars}
    (h : Fetched start finish (register others ticker bars) tickers more r) :
    Fetched start finish others (ticker :: tickers) (answered start finish (ticker, bars) :: more)
      r := by
  cases h with
  | @all loaded htickers =>
    have hcons : ticker :: tickers = ((ticker, bars) :: loaded).map Prod.fst :=
      congrArg (ticker :: ·) htickers
    exact .all hcons
  | @failed loaded failing rest fault htickers =>
    have hcons : ticker :: tickers =
        ((ticker, bars) :: loaded).map Prod.fst ++ failing :: rest :=
      congrArg (ticker :: ·) htickers
    exact .failed hcons

theorem map_ticker_answered (start finish : Date) (loaded : List (String × List (Bar Float))) :
    (loaded.map (answered start finish)).map Request.ticker = loaded.map Prod.fst :=
  List.map_map

/-- What is asked for are the first of these tickers. -/
theorem Fetched.initial {start finish : Date} {others : TickerBars} {tickers : List String}
    {requests : List Request} {r : Except Failure TickerBars}
    (h : Fetched start finish others tickers requests r) :
    requests.map Request.ticker <+: tickers := by
  cases h with
  | all htickers =>
    rw [map_ticker_answered, htickers]
  | @failed loaded ticker rest fault htickers =>
    rw [List.map_append, map_ticker_answered, htickers]
    exact (List.prefix_append_right_inj _).2 ⟨rest, rfl⟩

/-- **Loading several tickers** asks for one after the other. -/
theorem asks_fetchAll {κ : Type} (announce : String → StateM κ Unit)
    (load : BarLoader (StateM κ)) (start finish : Date) (others : TickerBars)
    (tickers : List String) :
    Asks (Fetched start finish others tickers)
      (fetchAll announce load start finish others tickers)
      (fetchAll (fun text => aside (announce text)) load.recording start finish others
        tickers) := by
  induction tickers generalizing others with
  | nil => exact .pure (@Fetched.all start finish others [] [] rfl)
  | cons ticker rest ih =>
    refine Asks.after_aside ?_ _
    refine (asks_load load ticker start finish).bind
      (fun bars => ih (register others ticker bars)) ?_ ?_
    · rintro more fault rfl
      exact @Fetched.failed start finish others _ [] ticker rest fault rfl
    · rintro first bars second r rfl h
      exact h.cons

/-! ### Runs -/

/-- **A strategy is run over bars that were loaded.** It is run over the table of its own bars, and
there are bars for everything that it reads. -/
structure Evaluated (s : Strategy) (bars : List (Bar Float)) (others : TickerBars) (t : BarTable)
    (rows : List TradeRow) : Prop where
  /-- This is what is run. -/
  run : s.run (SeriesSource.ofBars (m := Id) others) (.ofBars s.ticker bars) = (rows, t)
  /-- Every series that is asked for on the way is served. -/
  served : ∃ read, s.run (SeriesSource.ofBars others).recording (.ofBars s.ticker bars) ((), []) =
    ((rows, t), (), read) ∧ ∀ x ∈ read, Served others s.ticker x
  /-- A source that refuses what is not served refuses nothing. -/
  refusing : s.run (SeriesSource.refusing others) (.ofBars s.ticker bars) = some (rows, t)

/-- If there are bars for all tickers that a strategy reads, everything that it reads is served. -/
theorem served_of_readsFrom {s : Strategy} {tickers : List String} {others : TickerBars}
    (h : s.ReadsFrom tickers) (hothers : ∀ ticker ∈ tickers, (others.get? ticker).isSome = true) :
    ∀ x ∈ s.buyCondition.series ++ s.sellCondition.series, Served others s.ticker x := by
  intro x hx
  rw [List.mem_append, Condition.mem_series_iff, Condition.mem_series_iff] at hx
  rcases hticker : x.ticker? with _ | ticker
  · exact .inl (Series.ticker?_eq_none_iff.1 hticker)
  by_cases hown : ticker = s.ticker
  · exact .inr (.inl (hown ▸ hticker))
  · have hmem : ticker ∈ tickers := (h.mem_iff ticker).2 ⟨hown, x, hx, hticker⟩
    exact .inr (.inr ⟨ticker, hticker, hothers ticker hmem⟩)

/-- A run over which everything is served. -/
theorem evaluated_of_served {s : Strategy} {bars : List (Bar Float)} {others : TickerBars}
    (h : ∀ x ∈ s.buyCondition.series ++ s.sellCondition.series, Served others s.ticker x)
    {t : BarTable} {rows : List TradeRow}
    (hrun : s.run (SeriesSource.ofBars (m := Id) others) (.ofBars s.ticker bars) = (rows, t)) :
    Evaluated s bars others t rows where
  run := hrun
  served := by
    obtain ⟨hrecorded, -⟩ := s.meets_run (SeriesSource.ofBars others) (.ofBars s.ticker bars) () []
    obtain ⟨hplain, -⟩ := s.lifts_run (m := StateM Unit)
      (fun x _ => gives_ofBars s.ticker others x) (.ofBars s.ticker bars) rfl
    rw [hplain, hrun] at hrecorded
    exact ⟨_, hrecorded, fun x hx => h x (Series.mem_of_mem_firstMet hx)⟩
  refusing := (s.run_refusing h).trans (congrArg some hrun)

/-- **What is loaded for a run and what comes of it:** the requests, each with its answer, and the
result. -/
inductive Loaded (s : Strategy) (start finish : Date) :
    List Request → Except Failure (BarTable × List TradeRow) → Prop where
  /-- The own bars cannot be loaded. -/
  | ownFailed {fault : Failure} :
      Loaded s start finish [⟨s.ticker, start, finish, .error fault⟩] (.error fault)
  /-- There are no own bars. -/
  | ownEmpty :
      Loaded s start finish [⟨s.ticker, start, finish, .ok []⟩] (.error (.noData s.ticker))
  /-- The bars of another ticker cannot be loaded. -/
  | otherFailed {bars : List (Bar Float)} {more : List Request} {fault : Failure}
      (hbars : bars ≠ [])
      (hmore : Fetched start finish .empty s.otherTickers more (.error fault)) :
      Loaded s start finish (⟨s.ticker, start, finish, .ok bars⟩ :: more) (.error fault)
  /-- All bars are loaded, and the strategy is run over them. -/
  | done {bars : List (Bar Float)} {more : List Request} {others : TickerBars} {t : BarTable}
      {rows : List TradeRow} (hbars : bars ≠ [])
      (hmore : Fetched start finish .empty s.otherTickers more (.ok others))
      (hrun : Evaluated s bars others t rows) :
      Loaded s start finish (⟨s.ticker, start, finish, .ok bars⟩ :: more) (.ok (t, rows))

/-- When all tickers were loaded, there are bars for each of them. -/
theorem Fetched.isSome_get? {start finish : Date} {before others : TickerBars}
    {tickers : List String} {more : List Request}
    (h : Fetched start finish before tickers more (.ok others)) :
    ∀ ticker ∈ tickers, (others.get? ticker).isSome = true := by
  cases h with
  | all htickers =>
    intro ticker hticker
    exact isSome_get?_registerAll (.inr (htickers ▸ hticker))

/-- **Running a strategy** asks for its own ticker first, and for the others if there are bars. -/
theorem asks_runLoading {κ : Type} (announce : String → StateM κ Unit)
    (load : BarLoader (StateM κ)) (s : Strategy) (start finish : Date) :
    Asks (Loaded s start finish) (runLoading announce load s start finish)
      (runLoading (fun text => aside (announce text)) load.recording s start finish) := by
  refine Asks.after_aside ?_ _
  refine (asks_load load s.ticker start finish).bind (R := fun bars more r =>
    Loaded s start finish (⟨s.ticker, start, finish, .ok bars⟩ :: more) r) (fun bars => ?_) ?_ ?_
  · by_cases hempty : bars.isEmpty = true
    · rw [if_pos hempty, if_pos hempty]
      obtain rfl := List.isEmpty_iff.1 hempty
      exact .throw .ownEmpty
    · rw [if_neg hempty, if_neg hempty]
      have hbars : bars ≠ [] := fun h => hempty (List.isEmpty_iff.2 h)
      -- Nothing is asked for any more when all tickers are loaded.
      refine (asks_fetchAll announce load start finish .empty s.otherTickers).bind
        (R := fun others more r => more = [] ∧ ∃ t rows, r = .ok (t, rows) ∧
          s.run (SeriesSource.ofBars (m := Id) others) (.ofBars s.ticker bars) = (rows, t))
        (fun others => .pure ⟨rfl, _, _, rfl, rfl⟩) ?_ ?_
      · intro more fault h
        exact .otherFailed hbars h
      · rintro more others _ _ h ⟨rfl, t, rows, rfl, hrun⟩
        rw [List.append_nil]
        have hserved := served_of_readsFrom s.readsFrom_otherTickers h.isSome_get?
        exact .done hbars h (evaluated_of_served hserved hrun)
  · rintro more fault rfl
    exact .ownFailed
  · rintro first bars second r rfl h
    exact h

/-- What is asked for are the first of the tickers that are read, in order. -/
theorem Loaded.initial {s : Strategy} {start finish : Date} {requests : List Request}
    {r : Except Failure (BarTable × List TradeRow)} (h : Loaded s start finish requests r) :
    requests.map Request.ticker <+: s.ticker :: s.otherTickers := by
  cases h with
  | ownFailed | ownEmpty => exact ⟨s.otherTickers, rfl⟩
  | otherFailed _ hmore | done _ hmore => exact List.cons_prefix_cons.2 ⟨rfl, hmore.initial⟩

/-- **Everything that a strategy reads is loaded before it is run, and nothing else.** -/
theorem runLoading_loaded {κ : Type} (announce : String → StateM κ Unit)
    (load : BarLoader (StateM κ)) (s : Strategy) (start finish : Date) (k : κ) :
    let done := runLoading announce load s start finish k
    let recorded := runLoading (fun text => aside (announce text)) load.recording s start finish
      (k, [])
    (recorded.1 = done.1 ∧ recorded.2.1 = done.2) ∧
      Loaded s start finish recorded.2.2 done.1 ∧ s.ReadsFrom s.otherTickers ∧
      ∀ source defaults today, Ticker.isValid defaults.ticker = true →
        (validate source defaults today).strategy = some s →
        ∀ request ∈ recorded.2.2, Ticker.isValid request.ticker = true ∧
          '/' ∉ request.ticker.toList ∧ '\\' ∉ request.ticker.toList := by
  intro done recorded
  obtain ⟨requests, hrecorded, hloaded⟩ := asks_runLoading announce load s start finish k []
  have hrequests : recorded.2.2 = requests := congrArg (·.2.2) hrecorded
  rw [hrequests]
  refine ⟨⟨congrArg (·.1) hrecorded, congrArg (·.2.1) hrecorded⟩, hloaded,
    s.readsFrom_otherTickers, fun source defaults today hdefault haccepted request hrequest => ?_⟩
  obtain ⟨hown, hseries⟩ :=
    Strategy.isValid_of_check hdefault (Outcome.strategy_ofCheck.1 haccepted)
  suffices hvalid : Ticker.isValid request.ticker = true from
    ⟨hvalid, Ticker.not_mem_of_isValid hvalid (by decide),
      Ticker.not_mem_of_isValid hvalid (by decide)⟩
  rcases List.mem_cons.1 (hloaded.initial.subset (List.mem_map_of_mem hrequest)) with
    howned | hother
  · rw [howned]
    exact hown
  · obtain ⟨-, x, hx, hticker⟩ := (s.readsFrom_otherTickers.mem_iff request.ticker).1 hother
    rw [← Condition.mem_series_iff, ← Condition.mem_series_iff, ← List.mem_append] at hx
    exact hseries x hx _ hticker

/-- A text in which another ticker is named, inside of two conditions. -/
def crossing : String :=
  "Strategy(buy_condition=CrossOverCondition(SMA(length=10), SMA(length=50)), " ++
    "sell_condition=AfterXDaysCondition(OR(UptrendForXDaysCondition(OBV('MSFT'), 3)), 2))"

/-- A loader that counts its requests and has bars for one ticker only. -/
def oneTicker : BarLoader (StateM Nat) := fun ticker start _ asked =>
  (if ticker = "AAPL" then .ok [⟨start, 5, 5, 5, 5, 100⟩]
    else .error (.data (.reported ticker)), asked + 1)

/-- The strategy asks for the bars of two tickers, the first of them by default. -/
theorem runLoading_loaded_crossing : Ticker.isValid Defaults.standard.ticker = true ∧
    ∃ s, (validate crossing .standard ⟨2024, 2, 29, by decide⟩).strategy = some s ∧
      let recorded := runLoading (fun _ => aside (Pure.pure ())) oneTicker.recording s
        ⟨2024, 1, 1, by decide⟩ ⟨2024, 1, 31, by decide⟩ (0, [])
      recorded.2.1 = 2 ∧ recorded.2.2.map Request.ticker = ["AAPL", "MSFT"] ∧
        ∀ request ∈ recorded.2.2, Ticker.isValid request.ticker = true ∧
          '/' ∉ request.ticker.toList ∧ '\\' ∉ request.ticker.toList := by
  have hdefault : Ticker.isValid Defaults.standard.ticker = true := by decide
  have hasked : (validate crossing .standard ⟨2024, 2, 29, by decide⟩).strategy.map (fun s =>
      let recorded := runLoading (fun _ => aside (Pure.pure ())) oneTicker.recording s
        ⟨2024, 1, 1, by decide⟩ ⟨2024, 1, 31, by decide⟩ (0, [])
      (recorded.2.1, recorded.2.2.map Request.ticker)) = some (2, ["AAPL", "MSFT"]) := by
    decide +kernel
  obtain ⟨s, hs, hrecorded⟩ := Option.map_eq_some_iff.1 hasked
  obtain ⟨-, -, -, hvalid⟩ := runLoading_loaded (fun _ => Pure.pure ()) oneTicker s
    ⟨2024, 1, 1, by decide⟩ ⟨2024, 1, 31, by decide⟩ 0
  exact ⟨hdefault, s, hs, congrArg Prod.fst hrecorded, congrArg Prod.snd hrecorded,
    hvalid _ _ _ hdefault hs⟩

end Backtest

end TradeSignals
