import TradeSignals.Proofs.Market.BarOrder
import TradeSignals.Signals.Evaluation

/-!
# Signals do not look ahead

Two tables over the bars of one ticker are evaluated side by side, one over a run of bars
and one over a longer run that begins with it. Every column of the first is then a prefix
of that of the second (`TradeSignals.Grown`): the numbers of a series, because every
series is causal, and the signals of a condition, because a condition looks at the series
bar by bar or some bars back.

Evaluating a condition also reads and fills the caches of the tables. A series that was
read before is found in both of them or in neither, and what is found is again a column
and a longer one (`TradeSignals.BarTable.Paired`); this is the invariant of the
evaluation, and the two sources of numbers need only keep to it
(`TradeSignals.BarTable.agrees_evaluate`).
-/

namespace TradeSignals

variable {β γ δ : Type}

/-- A column of `m` values, and one of `n` values that begins with it. -/
structure Grown (m n : ℕ) (xs ys : List β) : Prop where
  /-- There are `m` values in the first. -/
  length_left : xs.length = m
  /-- There are `n` values in the second. -/
  length_right : ys.length = n
  /-- The second begins with the first. -/
  initial : xs <+: ys

namespace Grown

variable {m n : ℕ}

theorem apply {f : List β → List γ} (hf : Causal f) {xs ys : List β} (h : Grown m n xs ys) :
    Grown m n (f xs) (f ys) :=
  ⟨(hf.length_eq xs).trans h.length_left, (hf.length_eq ys).trans h.length_right,
    hf.mono h.initial⟩

theorem map (f : β → γ) {xs ys : List β} (h : Grown m n xs ys) :
    Grown m n (xs.map f) (ys.map f) :=
  h.apply (Causal.map f)

theorem zipWith (op : β → γ → δ) {xs ys : List β} {zs ws : List γ} (h : Grown m n xs ys)
    (h' : Grown m n zs ws) : Grown m n (List.zipWith op xs zs) (List.zipWith op ys ws) where
  length_left := by
    rw [List.length_zipWith, h.length_left, h'.length_left, Nat.min_self]
  length_right := by
    rw [List.length_zipWith, h.length_right, h'.length_right, Nat.min_self]
  initial := prefix_zipWith op h.initial h'.initial

theorem zip {xs ys : List β} {zs ws : List γ} (h : Grown m n xs ys) (h' : Grown m n zs ws) :
    Grown m n (xs.zip zs) (ys.zip ws) :=
  h.zipWith Prod.mk h'

theorem replicate (h : m ≤ n) (filler : β) :
    Grown m n (List.replicate m filler) (List.replicate n filler) := by
  refine ⟨List.length_replicate, List.length_replicate, ?_⟩
  have hprefix := replicate_prefix_append h filler []
  rwa [List.append_nil] at hprefix

theorem getElem?_eq {xs ys : List β} (h : Grown m n xs ys) {i : ℕ} (hi : i < m) :
    xs[i]? = ys[i]? := by
  obtain ⟨more, hmore⟩ := h.initial
  rw [← hmore, List.getElem?_append_left (h.length_left.symm ▸ hi)]

theorem fit_left {xs ys : List β} (h : Grown m n xs ys) (filler : β) :
    Column.fit m filler xs = xs :=
  Column.fit_of_length h.length_left

theorem fit_right {xs ys : List β} (h : Grown m n xs ys) (filler : β) :
    Column.fit n filler ys = ys :=
  Column.fit_of_length h.length_right

end Grown

namespace Signals

/-! ### Signals of series -/

theorem causal_againstPrevious (holds : β → β → Bool) : Causal (againstPrevious holds) where
  length_eq xs := by
    rcases xs with _ | ⟨first, rest⟩
    · rfl
    · rw [againstPrevious, List.length_cons, List.length_zipWith, List.length_cons]
      omega
  mono {xs ys} h := by
    rcases xs with _ | ⟨first, rest⟩
    · exact List.nil_prefix
    · rcases h with ⟨zs, rfl⟩
      exact (List.prefix_cons_inj false).mpr (prefix_zipWith _ (List.prefix_append rest zs)
        (List.prefix_append (first :: rest) zs))

theorem grown_pairs {m n : ℕ} {xs ys zs ws : List Float} (h : Grown m n xs ys)
    (h' : Grown m n zs ws) : Grown m n (pairs xs zs) (pairs ys ws) := by
  rw [pairs, pairs, h.length_left, h.length_right, h'.fit_left, h'.fit_right]
  exact h.zip h'

theorem grown_related (relation : Relation) {m n : ℕ} {xs ys zs ws : List Float}
    (h : Grown m n xs ys) (h' : Grown m n zs ws) :
    Grown m n (related relation xs zs) (related relation ys ws) := by
  cases relation with
  | above => exact (h.zip h').map _
  | below => exact (h.zip h').map _
  | crossedAbove => exact (grown_pairs h h').apply (causal_againstPrevious _)
  | crossedBelow => exact (grown_pairs h h').apply (causal_againstPrevious _)

theorem causal_changed (percent : Float) (days : ℕ) : Causal (changed percent days) := by
  refine Causal.of_gap false days (fun values =>
    List.zipWith (fun now base => changedBy percent base now) (values.drop days) values) ?_ ?_ ?_ ?_
  · intro values hvalues
    rw [changed, Nat.min_eq_right hvalues, List.drop_eq_nil_of_le hvalues, List.zipWith_nil_left,
      List.append_nil]
  · intro values hvalues
    rw [changed, Nat.min_eq_left (Nat.le_of_lt hvalues)]
  · intro values hvalues
    rw [List.length_zipWith, List.length_drop]
    omega
  · intro values more _ h
    exact prefix_zipWith _ (prefix_drop h days) h

theorem length_streaksFrom (direction : Direction) (before : Float) (count : ℕ)
    (values : List Float) : (streaksFrom direction before count values).length = values.length := by
  induction values generalizing before count with
  | nil => rfl
  | cons now rest ih => exact congrArg (· + 1) (ih _ _)

theorem streaksFrom_mono (direction : Direction) (before : Float) (count : ℕ)
    {values more : List Float} (h : values <+: more) :
    streaksFrom direction before count values <+: streaksFrom direction before count more := by
  induction values generalizing before count more with
  | nil => exact List.nil_prefix
  | cons now rest ih =>
    rcases h with ⟨zs, rfl⟩
    exact (List.prefix_cons_inj _).mpr (ih _ _ (List.prefix_append rest zs))

theorem causal_streaks (direction : Direction) : Causal (streaks direction) where
  length_eq values := by
    rcases values with _ | ⟨first, rest⟩
    · rfl
    · exact congrArg (· + 1) (length_streaksFrom direction first 0 rest)
  mono {values more} h := by
    rcases values with _ | ⟨first, rest⟩
    · exact List.nil_prefix
    · rcases h with ⟨zs, rfl⟩
      exact (List.prefix_cons_inj 0).mpr
        (streaksFrom_mono direction first 0 (List.prefix_append rest zs))

theorem causal_trending (direction : Direction) (days : ℕ) :
    Causal (trending direction days) :=
  (Causal.map _).comp (causal_streaks direction)

/-! ### Signals of signals -/

theorem causal_delayed (days : ℕ) : Causal (delayed days) := by
  refine Causal.of_gap none days (fun signals =>
    (signals.take (signals.length - days)).map
      fun label => label.map fun label => s!"AfterXDaysSignal({days}, {label})") ?_ ?_ ?_ ?_
  · intro signals hsignals
    rw [delayed, Nat.min_eq_right hsignals, Nat.sub_eq_zero_of_le hsignals, List.take_zero,
      List.map_nil, List.append_nil]
  · intro signals hsignals
    rw [delayed, Nat.min_eq_left (Nat.le_of_lt hsignals)]
  · intro signals hsignals
    rw [List.length_map, List.length_take]
    omega
  · intro signals more _ h
    have hle : signals.length - days ≤ more.length - days := Nat.sub_le_sub_right h.length_le days
    refine List.IsPrefix.map _ ?_
    rw [← take_of_prefix_le h (Nat.sub_le _ _)]
    exact List.take_prefix_take_left hle

section Junctions

variable {m n : ℕ} {results results' : List Signals}

theorem grown_together (h : m ≤ n) (hresults : List.Forall₂ (Grown m n) results results') :
    Grown m n (together m results) (together n results') := by
  induction hresults with
  | nil => exact Grown.replicate h _
  | cons hsignals _ ih =>
    rw [together, together, hsignals.fit_left, hsignals.fit_right]
    exact hsignals.zipWith _ ih

theorem grown_all (h : m ≤ n) (hresults : List.Forall₂ (Grown m n) results results') :
    Grown m n (all m results) (all n results') := by
  -- A junction of nothing is treated apart by the definition.
  rcases hresults with _ | ⟨hsignals, hrest⟩
  · exact Grown.replicate h none
  · rw [all, all, if_neg (List.cons_ne_nil _ _), if_neg (List.cons_ne_nil _ _)]
    exact (grown_together h (.cons hsignals hrest)).map _

theorem grown_any (h : m ≤ n) (hresults : List.Forall₂ (Grown m n) results results') :
    Grown m n (any m results) (any n results') := by
  -- The labels so far are a column and a longer one, whatever they are.
  have hfold : ∀ {before before' : Signals}, Grown m n before before' →
      Grown m n
        ((results.map (Column.fit m none)).foldl
          (List.zipWith fun before label => label.or before) before)
        ((results'.map (Column.fit n none)).foldl
          (List.zipWith fun before label => label.or before) before') := by
    induction hresults with
    | nil => exact fun hbefore => hbefore
    | cons hsignals _ ih =>
      intro before before' hbefore
      rw [List.map_cons, List.map_cons, List.foldl_cons, List.foldl_cons, hsignals.fit_left,
        hsignals.fit_right]
      exact ih (hbefore.zipWith _ hsignals)
  exact hfold (Grown.replicate h none)

end Junctions

end Signals

/-! ### Sources of numbers -/

namespace SeriesSource

/-- The numbers of bars laid out on days do not change when bars and numbers are added that
belong to other days. -/
theorem align_append {bars more : List (Bar Float)} {values : List Float} {others : List Float}
    (hlength : values.length = bars.length) {days : List Date}
    (h : ∀ day ∈ days, ∀ bar ∈ more, bar.date ≠ day) :
    align (bars ++ more) (values ++ others) days = align bars values days := by
  refine List.map_congr_left fun day hday => ?_
  rw [List.zip_append hlength.symm, List.reverse_append, List.find?_append]
  -- The last bar of a day is looked for from the end, so what was added is looked at first.
  have hnone : (more.zip others).reverse.find? (fun b => b.1.date = day) = none := by
    refine List.find?_eq_none.mpr fun b hb => ?_
    rw [decide_eq_true_iff]
    exact h day hday b.1 (List.of_mem_zip (List.mem_reverse.mp hb)).1
  rw [hnone, Option.none_or]

/-- Numbers laid out on the days of bars, and those of more bars on more days. -/
theorem grown_align {m n : ℕ} {own own' bars more : List (Bar Float)}
    {f : List (Bar Float) → List Float} (hown : Grown m n own own') (hf : Causal f)
    (hdays : ∀ day ∈ own.map (·.date), ∀ bar ∈ more, bar.date ≠ day) :
    Grown m n (align bars (f bars) (own.map (·.date)))
      (align (bars ++ more) (f (bars ++ more)) (own'.map (·.date))) := by
  obtain ⟨others, hothers⟩ := hf.mono (List.prefix_append bars more)
  rw [← hothers, ← align_append (hf.length_eq bars) hdays]
  exact (hown.map (·.date)).map _

/-- The bars of other tickers for two runs: those of the longer one are those of the
shorter one and bars of days that the shorter one does not have. -/
def Continued (days : List Date) (others others' : TickerBars) : Prop :=
  ∀ ticker,
    (others.get? ticker = none ∧ others'.get? ticker = none) ∨
      ∃ bars more, others.get? ticker = some bars ∧ others'.get? ticker = some (bars ++ more) ∧
        ∀ day ∈ days, ∀ bar ∈ more, bar.date ≠ day

/-- **The source that computes does not look ahead,** on any ticker. -/
theorem grown_ofBars {others others' : TickerBars} {t t' : BarTable}
    (hticker : t.ticker = t'.ticker) (hbars : t.bars <+: t'.bars)
    (hothers : Continued t.dates others others') (s : Series) :
    Grown t.size t'.size (ofBars (m := Id) others s t) (ofBars (m := Id) others' s t') := by
  have hown : Grown t.size t'.size t.bars t'.bars := ⟨rfl, rfl, hbars⟩
  rw [ofBars, ofBars, ← hticker]
  -- A series on its own ticker reads the table, one on another ticker the bars of that one.
  rcases s.ticker?.filter (· ≠ t.ticker) with _ | ticker
  · exact hown.apply s.causal_over
  · rcases hothers ticker with ⟨hnone, hnone'⟩ | ⟨bars, more, hsome, hsome', hdays⟩
    · simp only [hnone, hnone']
      exact Grown.replicate hbars.length_le Quantity.missing
    · simp only [hsome, hsome']
      exact grown_align hown s.causal_over hdays

end SeriesSource

namespace BarTable

/-! ### Evaluating side by side -/

/-- **Two tables side by side:** one over `bars` and one over the longer `bars'`. A series
is kept in both or in neither, and what is kept are a column and a longer one. -/
structure Paired (bars bars' : List (Bar Float)) (t t' : BarTable) : Prop where
  /-- The first table is over `bars`. -/
  bars_left : t.bars = bars
  /-- The second table is over `bars'`. -/
  bars_right : t'.bars = bars'
  /-- Both are tables of one ticker. -/
  ticker : t.ticker = t'.ticker
  /-- What is kept. -/
  cache : ∀ key,
    (t.cache.get? key = none ∧ t'.cache.get? key = none) ∨
      ∃ values values', t.cache.get? key = some values ∧ t'.cache.get? key = some values' ∧
        Grown bars.length bars'.length values values'

/-- Two computations over tables that keep them side by side and give results that are in
a relation. -/
def Agrees (bars bars' : List (Bar Float)) (R : β → γ → Prop) (x : StateT BarTable Id β)
    (x' : StateT BarTable Id γ) : Prop :=
  ∀ t t' : BarTable, Paired bars bars' t t' →
    R (x t).1 (x' t').1 ∧ Paired bars bars' (x t).2 (x' t').2

variable {bars bars' : List (Bar Float)}

theorem Agrees.pure {R : β → γ → Prop} {a : β} {a' : γ} (h : R a a') :
    Agrees bars bars' R (Pure.pure a) (Pure.pure a') :=
  fun _ _ ht => ⟨h, ht⟩

theorem Agrees.bind {ε ζ : Type} {R : β → γ → Prop} {S : ε → ζ → Prop}
    {x : StateT BarTable Id β} {x' : StateT BarTable Id γ} {f : β → StateT BarTable Id ε}
    {f' : γ → StateT BarTable Id ζ} (hx : Agrees bars bars' R x x')
    (hf : ∀ a a', R a a' → Agrees bars bars' S (f a) (f' a')) :
    Agrees bars bars' S (x >>= f) (x' >>= f') := by
  intro t t' ht
  obtain ⟨hR, hafter⟩ := hx t t' ht
  exact hf _ _ hR _ _ hafter

theorem agrees_get : Agrees bars bars' (Paired bars bars') get get :=
  fun _ _ ht => ⟨ht, ht⟩

theorem Paired.keep {t t' : BarTable} (h : Paired bars bars' t t') (key : String)
    {values values' : List Float} (hvalues : Grown bars.length bars'.length values values') :
    Paired bars bars' (t.keep key values) (t'.keep key values') where
  bars_left := h.bars_left
  bars_right := h.bars_right
  ticker := h.ticker
  cache other := by
    rw [BarTable.keep, BarTable.keep, Dictionary.get?_put, Dictionary.get?_put]
    by_cases hkey : other = key
    · rw [if_pos hkey, if_pos hkey]
      exact .inr ⟨values, values', rfl, rfl, hvalues⟩
    · rw [if_neg hkey, if_neg hkey]
      exact h.cache other

/-- A table after a series was read, with the numbers of the series. -/
theorem resolve_run (source : SeriesSource Id) (s : Series) (t : BarTable) :
    resolve source s t =
      match t.cache.get? s.text with
      | some values => (values, t)
      | none =>
        let values := Column.fit t.size Quantity.missing (source s t)
        (values, t.keep s.text values) := by
  show (match t.cache.get? s.text with
    | some values => pure values
    | none => do
      let values := Column.fit t.size Quantity.missing (← source s t)
      modify (·.keep s.text values)
      return values : StateT BarTable Id (List Float)) t = _
  rcases t.cache.get? s.text with _ | values
  · rfl
  · rfl

/-- Two sources that give the tables of a pair a column and a longer one. -/
def SourcesAgree (bars bars' : List (Bar Float)) (source source' : SeriesSource Id) : Prop :=
  ∀ t t' : BarTable, Paired bars bars' t t' →
    ∀ s, Grown bars.length bars'.length (source s t) (source' s t')

variable {source source' : SeriesSource Id}

theorem agrees_resolve (hsource : SourcesAgree bars bars' source source') (s : Series) :
    Agrees bars bars' (Grown bars.length bars'.length) (resolve source s)
      (resolve source' s) := by
  intro t t' ht
  rw [resolve_run, resolve_run]
  -- Either both tables keep the series already, or both read it now and keep it.
  rcases ht.cache s.text with ⟨hnone, hnone'⟩ | ⟨values, values', hsome, hsome', hvalues⟩
  · have hread := hsource t t' ht s
    have hsize : t.size = bars.length := congrArg List.length ht.bars_left
    have hsize' : t'.size = bars'.length := congrArg List.length ht.bars_right
    rw [hnone, hnone', hsize, hsize', hread.fit_left, hread.fit_right]
    exact ⟨hread, ht.keep s.text hread⟩
  · rw [hsome, hsome']
    exact ⟨hvalues, ht⟩

/-- Several conditions, if each of them is evaluated side by side. -/
theorem agrees_evaluateAll {conditions : List Condition}
    (h : ∀ c ∈ conditions, Agrees bars bars' (Grown bars.length bars'.length)
      (evaluate source c) (evaluate source' c)) :
    Agrees bars bars' (List.Forall₂ (Grown bars.length bars'.length))
      (evaluateAll source conditions) (evaluateAll source' conditions) := by
  induction conditions with
  | nil => exact Agrees.pure .nil
  | cons c rest ih =>
    rw [evaluateAll, evaluateAll]
    refine (h c List.mem_cons_self).bind fun signals signals' hsignals => ?_
    refine (ih fun d hd => h d (List.mem_cons_of_mem c hd)).bind fun results results' hresults => ?_
    exact Agrees.pure (.cons hsignals hresults)

/-- A junction of several conditions, whatever becomes of their signals. -/
theorem agrees_junction {conditions : List Condition} {junction : ℕ → List Signals → Signals}
    (h : ∀ c ∈ conditions, Agrees bars bars' (Grown bars.length bars'.length)
      (evaluate source c) (evaluate source' c))
    (hjunction : ∀ {results results'},
      List.Forall₂ (Grown bars.length bars'.length) results results' →
        Grown bars.length bars'.length (junction bars.length results)
          (junction bars'.length results')) :
    Agrees bars bars' (Grown bars.length bars'.length)
      (do
        let results ← evaluateAll source conditions
        return junction (← get).size results)
      (do
        let results ← evaluateAll source' conditions
        return junction (← get).size results) := by
  refine (agrees_evaluateAll h).bind fun results results' hresults => ?_
  refine agrees_get.bind fun t t' ht => Agrees.pure ?_
  rw [size, size, ht.bars_left, ht.bars_right]
  exact hjunction hresults

/-- **No condition looks ahead:** its signals over a run of bars are the first of its
signals over a longer one. -/
theorem agrees_evaluate (hbars : bars <+: bars')
    (hsource : SourcesAgree bars bars' source source') (c : Condition) :
    Agrees bars bars' (Grown bars.length bars'.length) (evaluate source c)
      (evaluate source' c) := by
  -- Induction on the condition; the tables stay side by side from each series to the next.
  induction c using Condition.induct with
  | comparison relation first second =>
    rw [evaluate, evaluate]
    refine (agrees_resolve hsource first).bind fun a a' ha => ?_
    refine (agrees_resolve hsource second).bind fun b b' hb => Agrees.pure ?_
    exact (Signals.grown_related relation ha hb).map _
  | all conditions ih =>
    rw [evaluate, evaluate]
    exact agrees_junction ih (Signals.grown_all hbars.length_le)
  | any conditions ih =>
    rw [evaluate, evaluate]
    exact agrees_junction ih (Signals.grown_any hbars.length_le)
  | after base days ih =>
    rw [evaluate, evaluate]
    refine ih.bind fun signals signals' hsignals => Agrees.pure ?_
    exact hsignals.apply (Signals.causal_delayed days.toNat)
  | changeOver s percent days =>
    rw [evaluate, evaluate]
    refine (agrees_resolve hsource s).bind fun values values' hvalues => Agrees.pure ?_
    exact (hvalues.apply (Signals.causal_changed percent days.toNat)).map _
  | change s percent =>
    rw [evaluate, evaluate]
    refine (agrees_resolve hsource s).bind fun values values' hvalues => Agrees.pure ?_
    exact (hvalues.apply (Signals.causal_changed percent 1)).map _
  | trend direction s days =>
    rw [evaluate, evaluate]
    refine (agrees_resolve hsource s).bind fun values values' hvalues => Agrees.pure ?_
    exact (hvalues.apply (Signals.causal_trending direction days.toNat)).map _

end BarTable

end TradeSignals
