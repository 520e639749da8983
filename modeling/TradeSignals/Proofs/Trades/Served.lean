import Mathlib.Tactic.Common
import TradeSignals.Trades.Backtest

/-!
# Series that are served

The numbers of a series are computed from bars if the series is constant, on the ticker of the
table, or on a ticker that has bars (`TradeSignals.SeriesSource.Served`). For all others there are
gaps only, and nothing tells them from numbers that are missing for other reasons. So a source that
refuses such series is put in the place of the one that computes
(`TradeSignals.SeriesSource.refusing`). If everything that a strategy reads is served, then nothing
is refused and the strategy does the same (`TradeSignals.Strategy.run_refusing`).

A source that may refuse has effects, one that computes has none. A condition comes to the same
over both of them if the first one answers on the series of the condition
(`TradeSignals.BarTable.lifts_evaluate`), whatever effects it might have on others. The relation
between the two computations goes through `pure` and `bind`, and keeps the ticker of the table in
view, on which it depends which series are served.
-/

namespace TradeSignals

namespace SeriesSource

variable {m : Type → Type} [Monad m]

/-- **A source gives the numbers of another one for a series** over the tables of a ticker, and
does nothing else. -/
def Gives (ticker : String) (plain : SeriesSource Id) (source : SeriesSource m) (s : Series) :
    Prop :=
  ∀ t : BarTable, t.ticker = ticker → source s t = pure (plain s t : List Float)

/-- The source that computes does nothing else. -/
theorem gives_ofBars (ticker : String) (others : TickerBars) (s : Series) :
    Gives ticker (ofBars others) (ofBars others : SeriesSource m) s := by
  intro t _
  rw [ofBars, ofBars]
  rcases s.ticker?.filter (· ≠ t.ticker) with _ | ticker
  · rfl
  · dsimp only
    rcases others.get? ticker with _ | bars <;> rfl

/-- **The source that refuses:** it computes from bars, and has no answer for a ticker without
bars. -/
def refusing (others : TickerBars) : SeriesSource Option := fun s t =>
  match s.ticker?.filter (· ≠ t.ticker) with
  | none => some (s.over t.bars)
  | some ticker => (others.get? ticker).map fun bars => align bars (s.over bars) t.dates

/-- **A series that is served** over the tables of a ticker: it is constant, or on this ticker, or
on one that has bars. -/
def Served (others : TickerBars) (ticker : String) (s : Series) : Prop :=
  (∃ value, s = .constant value) ∨ s.ticker? = some ticker ∨
    ∃ other, s.ticker? = some other ∧ (others.get? other).isSome = true

/-- **What is not served is refused,** and nothing else is. -/
theorem isSome_refusing_iff {others : TickerBars} {s : Series} {t : BarTable} :
    (refusing others s t).isSome = true ↔ Served others t.ticker s := by
  unfold refusing Served
  rcases hticker : s.ticker? with _ | ticker
  · obtain ⟨value, rfl⟩ := Series.ticker?_eq_none_iff.1 hticker
    exact ⟨fun _ => .inl ⟨value, rfl⟩, fun _ => rfl⟩
  · have hconstant : ¬∃ value, s = .constant value := fun h =>
      Option.some_ne_none ticker (hticker.symm.trans (Series.ticker?_eq_none_iff.2 h))
    rw [Option.filter_some]
    by_cases hown : ticker = t.ticker
    · simp [hown]
    · simp [hown, hconstant]

/-- What is served is given as by the source that computes. -/
theorem gives_refusing {others : TickerBars} {ticker : String} {s : Series}
    (h : Served others ticker s) : Gives ticker (ofBars others) (refusing others) s := by
  rintro t rfl
  have hsome := isSome_refusing_iff.2 h
  unfold refusing at hsome ⊢
  rw [ofBars]
  generalize s.ticker?.filter (· ≠ t.ticker) = asked at hsome ⊢
  cases asked with
  | none => rfl
  | some ticker =>
    dsimp only at hsome ⊢
    generalize others.get? ticker = found at hsome ⊢
    cases found with
    | none => cases hsome
    | some bars => rfl

end SeriesSource

namespace BarTable

open SeriesSource

section Lifts

variable {m : Type → Type} [Monad m] {β γ : Type} {ticker : String}

/-- **A computation over the tables of a ticker comes to what another one does,** without effects.
Of its result something else is known. -/
def Lifts (ticker : String) (P : β → Prop) (x : StateT BarTable Id β) (y : StateT BarTable m β) :
    Prop :=
  ∀ t : BarTable, t.ticker = ticker →
    y t = pure (x t : β × BarTable) ∧ P (x t).1 ∧ (x t).2.ticker = ticker

theorem Lifts.pure {P : β → Prop} {a : β} (h : P a) :
    Lifts ticker P (Pure.pure a) (Pure.pure a : StateT BarTable m β) :=
  fun _ ht => ⟨rfl, h, ht⟩

theorem lifts_get :
    Lifts ticker (fun t => t.ticker = ticker) get (get : StateT BarTable m BarTable) :=
  fun _ ht => ⟨rfl, ht, ht⟩

theorem lifts_set {t : BarTable} (ht : t.ticker = ticker) :
    Lifts ticker (fun _ => True) (set t) (set t : StateT BarTable m PUnit) :=
  fun _ _ => ⟨rfl, trivial, ht⟩

theorem lifts_keep (key : String) (values : List Float) :
    Lifts ticker (fun _ => True) (modify (·.keep key values))
      (modify (·.keep key values) : StateT BarTable m PUnit) :=
  fun _ ht => ⟨rfl, trivial, ht⟩

variable [LawfulMonad m]

theorem Lifts.bind {P : β → Prop} {Q : γ → Prop} {x : StateT BarTable Id β}
    {y : StateT BarTable m β} {f : β → StateT BarTable Id γ} {g : β → StateT BarTable m γ}
    (hx : Lifts ticker P x y) (hf : ∀ a, P a → Lifts ticker Q (f a) (g a)) :
    Lifts ticker Q (x >>= f) (y >>= g) := by
  intro t ht
  obtain ⟨hresult, hP, hticker⟩ := hx t ht
  obtain ⟨hresult', hrest⟩ := hf _ hP _ hticker
  refine ⟨?_, hrest⟩
  show (y t >>= fun p => g p.1 p.2) = _
  rw [hresult, pure_bind, hresult']
  rfl

theorem lifts_lift {x : Id β} {y : m β} (h : y = pure (x : β)) :
    Lifts ticker (fun _ => True) (liftM x : StateT BarTable Id β)
      (liftM y : StateT BarTable m β) := by
  intro t ht
  refine ⟨?_, trivial, ht⟩
  show (y >>= fun a => pure (a, t)) = _
  rw [h, pure_bind]
  rfl

variable {plain : SeriesSource Id} {source : SeriesSource m}

/-- Reading a series that the source gives. -/
theorem lifts_resolve {s : Series} (h : Gives ticker plain source s) :
    Lifts ticker (fun _ => True) (resolve plain s) (resolve source s) := by
  refine lifts_get.bind fun t ht => ?_
  rcases t.cache.get? s.text with _ | values
  · refine (lifts_lift (h t ht)).bind fun values _ => ?_
    exact (lifts_keep s.text _).bind fun _ _ => .pure trivial
  · exact .pure trivial

/-- Evaluating conditions, if each of them comes to the same. -/
theorem lifts_evaluateAll {cs : List Condition}
    (h : ∀ c ∈ cs, Lifts ticker (fun _ => True) (evaluate plain c) (evaluate source c)) :
    Lifts ticker (fun _ => True) (evaluateAll plain cs) (evaluateAll source cs) := by
  induction cs with
  | nil => exact .pure trivial
  | cons c cs ih =>
    refine (h c List.mem_cons_self).bind fun signals _ => ?_
    exact (ih fun d hd => h d (List.mem_cons_of_mem c hd)).bind fun rest _ => .pure trivial

/-- **A condition comes to the same** over a source that gives its series. -/
theorem lifts_evaluate (c : Condition) (h : ∀ s ∈ c.series, Gives ticker plain source s) :
    Lifts ticker (fun _ => True) (evaluate plain c) (evaluate source c) := by
  have hjunction : ∀ cs : List Condition, (∀ c ∈ cs,
      (∀ s ∈ c.series, Gives ticker plain source s) →
        Lifts ticker (fun _ => True) (evaluate plain c) (evaluate source c)) →
      (∀ s ∈ Condition.seriesOfAll cs, Gives ticker plain source s) →
        Lifts ticker (fun _ => True) (evaluateAll plain cs) (evaluateAll source cs) := by
    intro cs ih hcs
    refine lifts_evaluateAll fun c hc => ih c hc fun s hs => hcs s ?_
    rw [Condition.seriesOfAll_eq]
    exact List.mem_flatMap.2 ⟨c, hc, hs⟩
  induction c using Condition.induct with
  | comparison relation first second =>
    obtain ⟨hfirst, hsecond⟩ := List.forall_mem_cons.1 h
    exact (lifts_resolve hfirst).bind fun a _ =>
      (lifts_resolve (List.forall_mem_singleton.1 hsecond)).bind fun b _ => .pure trivial
  | all cs ih | any cs ih =>
    exact (hjunction cs ih h).bind fun results _ => lifts_get.bind fun t _ => .pure trivial
  | after base days ih => exact (ih h).bind fun signals _ => .pure trivial
  | changeOver s percent days | change s percent | trend direction s days =>
    exact (lifts_resolve (List.forall_mem_singleton.1 h)).bind fun values _ => .pure trivial

end Lifts

end BarTable

namespace Strategy

open SeriesSource BarTable

variable {m : Type → Type} [Monad m] [LawfulMonad m] {plain : SeriesSource Id}
  {source : SeriesSource m}

/-- **A strategy does the same** over a source that gives its series. -/
theorem lifts_run {ticker : String} (s : Strategy)
    (h : ∀ x ∈ s.buyCondition.series ++ s.sellCondition.series, Gives ticker plain source x) :
    Lifts ticker (fun _ => True) (s.run plain) (s.run source) := by
  obtain ⟨hbuy, hsell⟩ := List.forall_mem_append.1 h
  refine (lifts_evaluate _ hbuy).bind fun buy _ => ?_
  refine (lifts_evaluate _ hsell).bind fun sell _ => ?_
  refine lifts_get.bind fun t ht => ?_
  dsimp only
  generalize Reconciliation.withExits _ _ _ _ _ = done
  obtain ⟨rows, fired⟩ := done
  -- The table that is written has the ticker of the one that was read.
  exact (lifts_set (t := record t rows fired buy sell) ht).bind fun _ _ => .pure trivial

/-- **If everything that a strategy reads is served,** nothing is refused. -/
theorem run_refusing {others : TickerBars} {t : BarTable} (s : Strategy)
    (h : ∀ x ∈ s.buyCondition.series ++ s.sellCondition.series, Served others t.ticker x) :
    s.run (refusing others) t =
      some (s.run (ofBars (m := Id) others) t : List TradeRow × BarTable) :=
  (s.lifts_run fun x hx => gives_refusing (h x hx)) t rfl |>.1

end Strategy

end TradeSignals
