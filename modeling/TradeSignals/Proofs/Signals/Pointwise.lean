import TradeSignals.Proofs.Trades.Aligned
import TradeSignals.Proofs.Trades.SharedTable

/-!
# Conditions bar by bar

A condition is evaluated over whole columns: columns are compared, joined, written over each
other and moved to later bars. This file says once more what a condition means, without columns.
Given the number of each series on each bar, `TradeSignals.Condition.holdsAt` says whether the
condition holds on one bar, and `TradeSignals.Condition.labelAt` what is to be said of it there,
both by recursion on the condition and nothing else.

A column of so many values is the beginning of a sequence
(`TradeSignals.Column.along`), and each of the operations on columns is an operation on the
values of one bar, or of some bars before it. So the signals of a condition are the sequence of
what holds on each bar (`TradeSignals.Condition.signals_eq_along`), and this is what an evaluation
over a new table gives, for the numbers that the source answers
(`TradeSignals.BarTable.evaluate_eq_along`).
-/

namespace TradeSignals

/-! ### What holds on a bar -/

/-- Does a relation hold between two series on a bar? A crossing needs a bar before. -/
def Relation.holdsAt (relation : Relation) (a b : ℕ → Float) (i : ℕ) : Bool :=
  match relation with
  | .above => decide (a i > b i)
  | .below => decide (a i < b i)
  | .crossedAbove => decide (1 ≤ i ∧ a (i - 1) < b (i - 1) ∧ a i > b i)
  | .crossedBelow => decide (1 ≤ i ∧ a (i - 1) > b (i - 1) ∧ a i < b i)

/-- Has each of so many steps up to a bar gone one way, or nowhere? -/
def Direction.holdsAt (direction : Direction) (days : ℕ) (a : ℕ → Float) (i : ℕ) : Bool :=
  match direction with
  | .up => decide (days ≤ i ∧ ∀ back < days, a (i - back) ≥ a (i - back - 1))
  | .down => decide (days ≤ i ∧ ∀ back < days, a (i - back) ≤ a (i - back - 1))

/-- Has a series changed by so many percent up to a bar, over so many bars? -/
def changedAt (percent : Float) (days : ℕ) (a : ℕ → Float) (i : ℕ) : Bool :=
  let base := a (i - days)
  let change := (a i - base) / base * 100
  decide (days ≤ i) && percent != 0 && base != 0 && !base.isNaN &&
    if percent > 0 then decide (change ≥ percent) else decide (change ≤ percent)

namespace Condition

variable (numbers : Series → ℕ → Float)

mutual

/-- **Does a condition hold on a bar?** This goes by the number of each series on each bar. -/
def holdsAt : Condition → ℕ → Bool
  | .comparison relation first second, i => relation.holdsAt (numbers first) (numbers second) i
  | .all conditions, i => !conditions.isEmpty && allHoldAt conditions i
  | .any conditions, i => oneHoldsAt conditions i
  | .after base days, i => decide (days.toNat ≤ i) && holdsAt base (i - days.toNat)
  | .changeOver s percent days, i => changedAt percent days.toNat (numbers s) i
  | .change s percent, i => changedAt percent 1 (numbers s) i
  | .trend direction s days, i => direction.holdsAt days.toNat (numbers s) i

/-- Do all of several conditions hold on a bar? -/
def allHoldAt : List Condition → ℕ → Bool
  | [], _ => true
  | c :: rest, i => holdsAt c i && allHoldAt rest i

/-- Does one of several conditions hold on a bar? -/
def oneHoldsAt : List Condition → ℕ → Bool
  | [], _ => false
  | c :: rest, i => holdsAt c i || oneHoldsAt rest i

end

mutual

/-- **What is said of a condition** that holds on a bar. -/
def labelAt : Condition → ℕ → String
  | .comparison relation first second, _ =>
    signalLabel relation.signalName [first.text, second.text]
  | .all conditions, i => "AND(" ++ ", ".intercalate (labelsAt conditions i) ++ ")"
  | .any conditions, i => (lastLabelAt? conditions i).getD ""
  | .after base days, i => s!"AfterXDaysSignal({days.toNat}, {labelAt base (i - days.toNat)})"
  | .changeOver s percent days, _ =>
    signalLabel "ChangeOfXPercentPerYDaysSignal"
      [s.text, NumberLayout.canonical.text percent, toString days]
  | .change s percent, _ =>
    signalLabel "IntraIntervalChangeOfXPercentSignal"
      [s.text, NumberLayout.canonical.text percent]
  | .trend direction s days, _ => signalLabel direction.signalName [s.text, toString days]

/-- What is said of several conditions. -/
def labelsAt : List Condition → ℕ → List String
  | [], _ => []
  | c :: rest, i => labelAt c i :: labelsAt rest i

/-- What is said of the last of several conditions that holds, if one does. -/
def lastLabelAt? : List Condition → ℕ → Option String
  | [], _ => none
  | c :: rest, i =>
    (lastLabelAt? rest i).or (if c.holdsAt numbers i then some (labelAt c i) else none)

end

/-- What is signalled on a bar. -/
def signalAt (c : Condition) (i : ℕ) : Option String :=
  if c.holdsAt numbers i then some (c.labelAt numbers i) else none

theorem allHoldAt_eq (cs : List Condition) (i : ℕ) :
    allHoldAt numbers cs i = cs.all (·.holdsAt numbers i) := by
  induction cs with
  | nil => rfl
  | cons c cs ih => rw [allHoldAt, ih, List.all_cons]

theorem oneHoldsAt_eq (cs : List Condition) (i : ℕ) :
    oneHoldsAt numbers cs i = cs.any (·.holdsAt numbers i) := by
  induction cs with
  | nil => rfl
  | cons c cs ih => rw [oneHoldsAt, ih, List.any_cons]

theorem labelsAt_eq (cs : List Condition) (i : ℕ) :
    labelsAt numbers cs i = cs.map (·.labelAt numbers i) := by
  induction cs with
  | nil => rfl
  | cons c cs ih => rw [labelsAt, ih, List.map_cons]

/-- Of the conditions that hold it is the last one that is spoken of. -/
theorem lastLabelAt?_eq (cs : List Condition) (i : ℕ) : lastLabelAt? numbers cs i =
    ((cs.filter (·.holdsAt numbers i)).getLast?).map (·.labelAt numbers i) := by
  induction cs with
  | nil => rfl
  | cons c cs ih =>
    rw [lastLabelAt?, ih, List.filter_cons]
    by_cases hholds : c.holdsAt numbers i = true
    · rw [if_pos hholds, if_pos hholds, List.getLast?_cons]
      cases hlast : (cs.filter (·.holdsAt numbers i)).getLast? <;> rfl
    · rw [if_neg hholds, if_neg hholds, Option.or_none]

/-! ### What is signalled on a bar -/

theorem signalAt_all {cs : List Condition} (hne : cs ≠ []) (i : ℕ) :
    signalAt numbers (.all cs) i = (cs.mapM (signalAt numbers · i)).map
      fun labels => "AND(" ++ ", ".intercalate labels ++ ")" := by
  have hmapM : cs.mapM (signalAt numbers · i) =
      if allHoldAt numbers cs i then some (labelsAt numbers cs i) else none := by
    rw [allHoldAt_eq, labelsAt_eq]
    clear hne
    induction cs with
    | nil => rfl
    | cons c cs ih =>
      rw [List.mapM_cons, ih, signalAt, List.all_cons, List.map_cons]
      cases c.holdsAt numbers i <;> cases cs.all (·.holdsAt numbers i) <;> rfl
  rw [hmapM, signalAt, holdsAt, List.isEmpty_eq_false_iff.2 hne]
  cases allHoldAt numbers cs i <;> rfl

theorem signalAt_any (cs : List Condition) (i : ℕ) :
    signalAt numbers (.any cs) i = lastLabelAt? numbers cs i := by
  show (if oneHoldsAt numbers cs i then some ((lastLabelAt? numbers cs i).getD "") else none) = _
  rw [oneHoldsAt_eq, lastLabelAt?_eq]
  by_cases hone : cs.any (·.holdsAt numbers i) = true
  · obtain ⟨c, hc, hholds⟩ := List.any_eq_true.1 hone
    have hne : cs.filter (·.holdsAt numbers i) ≠ [] :=
      List.ne_nil_of_mem (List.mem_filter.2 ⟨hc, hholds⟩)
    rw [if_pos hone, List.getLast?_eq_some_getLast hne]
    rfl
  · have hnone : cs.filter (·.holdsAt numbers i) = [] :=
      List.filter_eq_nil_iff.2 fun c hc hholds => hone (List.any_eq_true.2 ⟨c, hc, hholds⟩)
    rw [if_neg hone, hnone]
    rfl

/-- Writing the signals of several conditions over each other leaves the last one. -/
theorem foldl_signalAt (cs : List Condition) (i : ℕ) (before : Option String) :
    cs.foldl (fun before c => (c.signalAt numbers i).or before) before =
      (lastLabelAt? numbers cs i).or before := by
  induction cs generalizing before with
  | nil => rfl
  | cons c cs ih =>
    rw [List.foldl_cons, ih, lastLabelAt?, Option.or_assoc]
    rfl

theorem signalAt_after (base : Condition) (days : UInt64) (i : ℕ) :
    signalAt numbers (.after base days) i =
      if days.toNat ≤ i then (base.signalAt numbers (i - days.toNat)).map
        fun label => s!"AfterXDaysSignal({days.toNat}, {label})"
      else none := by
  rw [signalAt, signalAt, holdsAt]
  by_cases hdays : days.toNat ≤ i
  · rw [if_pos hdays, decide_eq_true hdays, Bool.true_and, apply_ite (Option.map _)]
    rfl
  · rw [if_neg hdays, decide_eq_false hdays, Bool.false_and]
    exact if_neg Bool.false_ne_true

end Condition

/-! ### Columns along sequences -/

namespace Column

variable {α : Type} {size : ℕ}

/-- The column with the first values of a sequence. -/
def along (size : ℕ) (f : ℕ → α) : List α := (List.range size).map f

@[simp] theorem length_along (size : ℕ) (f : ℕ → α) : (along size f).length = size := by
  rw [along, List.length_map, List.length_range]

theorem getElem?_along (f : ℕ → α) {i : ℕ} (h : i < size) :
    (along size f)[i]? = some (f i) := by
  rw [along, List.getElem?_map, List.getElem?_range h, Option.map_some]

theorem eq_along {xs : List α} {f : ℕ → α} (hlength : xs.length = size)
    (h : ∀ i < size, xs[i]? = some (f i)) : xs = along size f := by
  refine List.ext_getElem? fun i => ?_
  rcases Nat.lt_or_ge i size with hi | hi
  · rw [h i hi, getElem?_along f hi]
  · rw [List.getElem?_eq_none (hlength ▸ hi), List.getElem?_eq_none (by rwa [length_along])]

theorem map_along {β : Type} (g : α → β) (f : ℕ → α) :
    (along size f).map g = along size fun i => g (f i) :=
  List.map_map

/-- A fitted column is along what it was fitted from, with the filler where there is nothing. -/
theorem fit_eq_along (size : ℕ) (filler : α) (xs : List α) :
    fit size filler xs = along size fun i => xs[i]?.getD filler := by
  refine eq_along (length_fit _ _ _) fun i hi => ?_
  rw [fit, List.getElem?_append]
  rcases Nat.lt_or_ge i xs.length with hlt | hge
  · rw [if_pos (by rw [List.length_take]; omega), List.getElem?_take_of_lt hi,
      List.getElem?_eq_getElem hlt, Option.getD_some]
  · rw [if_neg (by rw [List.length_take]; omega), List.length_take,
      List.getElem?_replicate_of_lt (by omega), List.getElem?_eq_none hge, Option.getD_none]

/-- A column is along the sequence of its values. -/
theorem along_getD (filler : α) {xs : List α} (h : xs.length = size) :
    along size (fun i => xs[i]?.getD filler) = xs := by
  refine (eq_along h fun i hi => ?_).symm
  rw [List.getElem?_eq_getElem (h.symm ▸ hi), Option.getD_some]

end Column

/-! ### Operations on columns, bar by bar -/

namespace Signals

open Column (along getElem?_along length_along eq_along map_along)

variable {size : ℕ}

theorem mark_along (label : String) (p : ℕ → Bool) :
    mark label (along size p) = along size fun i => if p i then some label else none :=
  map_along _ p

theorem zip_along (a b : ℕ → Float) :
    (along size a).zip (along size b) = along size fun i => (a i, b i) := by
  refine eq_along (by rw [List.length_zip, length_along, length_along, Nat.min_self])
    fun i hi => ?_
  exact List.getElem?_zip_eq_some.2 ⟨getElem?_along a hi, getElem?_along b hi⟩

theorem againstPrevious_along {α : Type} (holds : α → α → Bool) (f : ℕ → α) :
    againstPrevious holds (along size f) =
      along size fun i => decide (1 ≤ i) && holds (f (i - 1)) (f i) := by
  refine eq_along (((causal_againstPrevious _).length_eq _).trans (length_along _ _))
    fun i hi => ?_
  rw [Indexed.getElem?_againstPrevious, getElem?_along f hi, Option.map_some]
  rcases i with _ | i
  · rfl
  · rw [Nat.add_sub_cancel, getElem?_along f (Nat.lt_of_succ_lt hi)]
    rfl

theorem related_along (relation : Relation) (a b : ℕ → Float) :
    related relation (along size a) (along size b) = along size (relation.holdsAt a b) := by
  have hpairs : pairs (along size a) (along size b) = along size fun i => (a i, b i) := by
    rw [Indexed.pairs_eq_zip (by rw [length_along, length_along]), zip_along]
  cases relation with
  | above | below => rw [related, zip_along, map_along]; rfl
  | crossedAbove | crossedBelow =>
    rw [related, hpairs, againstPrevious_along]
    refine congrArg (along size) (funext fun i => ?_)
    simp only [Relation.holdsAt, Bool.decide_and]

theorem changed_along (percent : Float) (days : ℕ) (a : ℕ → Float) :
    changed percent days (along size a) = along size (changedAt percent days a) := by
  refine eq_along (((causal_changed _ _).length_eq _).trans (length_along _ _)) fun i hi => ?_
  rw [Indexed.getElem?_changed, getElem?_along a hi, Option.map_some,
    getElem?_along a (by omega : i - days < size), Option.map_some, Option.getD_some]
  refine congrArg some ?_
  simp only [changedBy, changedAt, bne]
  by_cases hdays : days ≤ i
  · rw [if_neg (Nat.not_lt.2 hdays), decide_eq_true hdays, Bool.true_and]
    cases percent == 0 <;> cases a (i - days) == 0 <;> cases (a (i - days)).isNaN <;> rfl
  · rw [if_pos (Nat.not_le.1 hdays), decide_eq_false hdays]
    rfl

theorem trending_along (direction : Direction) (days : ℕ) (a : ℕ → Float) :
    trending direction days (along size a) = along size (direction.holdsAt days a) := by
  refine eq_along (((causal_trending _ _).length_eq _).trans (length_along _ _)) fun i hi => ?_
  obtain ⟨count, hcount⟩ : ∃ count, (streaks direction (along size a))[i]? = some count :=
    ⟨_, List.getElem?_eq_getElem (by rwa [(causal_streaks direction).length_eq, length_along])⟩
  have hgoes : ∀ j, j < size → Indexed.goesAt direction (along size a) j =
      goes direction (a (j - 1)) (a j) := by
    intro j hj
    rw [Indexed.goesAt, getElem?_along a hj, getElem?_along a (by omega)]
  -- The steps that end at the bar, counted from the first and counted backwards.
  have hsteps : days ≤ count ↔ days ≤ i ∧
      ∀ back < days, goes direction (a (i - back - 1)) (a (i - back)) = true := by
    refine (Indexed.le_streak_iff direction hcount days).trans (and_congr_right fun hdays => ?_)
    refine ⟨fun h back hback => ?_, fun h j hj hj' => ?_⟩
    · rw [← hgoes _ (by omega)]
      exact h (i - back) (by omega) (by omega)
    · have hback := h (i - j) (by omega)
      rw [Nat.sub_sub_self hj'] at hback
      rw [hgoes j (by omega), hback]
  rw [trending, List.getElem?_map, hcount, Option.map_some]
  refine congrArg some ?_
  cases direction with
  | up | down =>
    simpa only [Direction.holdsAt, decide_eq_decide, goes, decide_eq_true_iff] using hsteps

/-! ### Operations on signals, bar by bar -/

theorem delayed_along (days : ℕ) (f : ℕ → Option String) :
    delayed days (along size f) = along size fun i =>
      if days ≤ i then (f (i - days)).map fun label => s!"AfterXDaysSignal({days}, {label})"
      else none := by
  refine eq_along (((causal_delayed _).length_eq _).trans (length_along _ _)) fun i hi => ?_
  rw [Indexed.getElem?_delayed, getElem?_along f hi, Option.map_some,
    getElem?_along f (by omega : i - days < size), Option.join_some]
  refine congrArg some ?_
  by_cases hdays : days ≤ i
  · rw [if_neg (Nat.not_lt.2 hdays), if_pos hdays]
  · rw [if_pos (Nat.not_le.1 hdays), if_neg hdays]

/-- Nothing is signalled on any bar. -/
theorem replicate_none_eq_along (size : ℕ) :
    List.replicate size (none : Option String) = along size fun _ => none := by
  rw [along, List.map_const', List.length_range]

variable {α : Type} (f : α → ℕ → Option String)

theorem length_of_mem_along (size : ℕ) (xs : List α) :
    ∀ s ∈ xs.map fun x => along size (f x), s.length = size :=
  List.forall_mem_map.2 fun _ _ => length_along _ _

theorem all_along {xs : List α} (hne : xs ≠ []) : all size (xs.map fun x => along size (f x)) =
    along size fun i => (xs.mapM fun x => f x i).map
      fun labels => "AND(" ++ ", ".intercalate labels ++ ")" := by
  have hlength := length_of_mem_along f size xs
  refine eq_along (Indexed.length_all hlength) fun i hi => ?_
  have hread : (xs.map fun x => along size (f x)).map (fun s => s[i]?.join) =
      xs.map fun x => f x i := by
    rw [List.map_map]
    refine List.map_congr_left fun x _ => ?_
    rw [Function.comp_apply, getElem?_along _ hi, Option.join_some]
  rw [Indexed.getElem?_all hlength (mt List.map_eq_nil_iff.1 hne) hi, hread, List.mapM_map]
  rfl

/-- Signals that are written over others, one after the other. -/
theorem foldl_along (xs : List α) (g : ℕ → Option String) :
    ((xs.map fun x => along size (f x)).map (Column.fit size none)).foldl
        (List.zipWith fun before label => label.or before) (along size g) =
      along size fun i => xs.foldl (fun before x => (f x i).or before) (g i) := by
  induction xs generalizing g with
  | nil => rfl
  | cons x xs ih =>
    have hover : List.zipWith (fun before label => label.or before) (along size g)
        (along size (f x)) = along size fun i => (f x i).or (g i) := by
      refine eq_along (Indexed.length_overwritten (length_along _ _) (length_along _ _))
        fun i hi => ?_
      exact Indexed.getElem?_overwritten (getElem?_along g hi) (getElem?_along (f x) hi)
    rw [List.map_cons, List.map_cons, List.foldl_cons, Column.fit_of_length (length_along _ _),
      hover, ih]
    rfl

theorem any_along (xs : List α) : any size (xs.map fun x => along size (f x)) =
    along size fun i => xs.foldl (fun before x => (f x i).or before) none := by
  rw [any, replicate_none_eq_along, foldl_along]

end Signals

/-! ### The signals of a condition -/

namespace Condition

open Column (along)

variable {size : ℕ}

theorem signalsOfAll_eq (size : ℕ) (numbers : Series → List Float) (cs : List Condition) :
    signalsOfAll size numbers cs = cs.map (·.signals size numbers) := by
  induction cs with
  | nil => rfl
  | cons c cs ih => rw [signalsOfAll, ih, List.map_cons]

variable {columns : Series → List Float} {numbers : Series → ℕ → Float}

/-- Several conditions, each of which reads some of the series. -/
theorem signalsOfAll_eq_along {cs : List Condition}
    (h : ∀ s ∈ seriesOfAll cs, columns s = along size (numbers s))
    (ih : ∀ c ∈ cs, (∀ s ∈ c.series, columns s = along size (numbers s)) →
      c.signals size columns = along size (c.signalAt numbers)) :
    signalsOfAll size columns cs = cs.map fun c => along size (c.signalAt numbers) := by
  rw [seriesOfAll_eq] at h
  rw [signalsOfAll_eq]
  exact List.map_congr_left fun c hc =>
    ih c hc fun s hs => h s (List.mem_flatMap.2 ⟨c, hc, hs⟩)

/-- **The signals of a condition, bar by bar:** what is signalled on a bar is what holds there,
if each series that the condition reads is the column along its numbers. -/
theorem signals_eq_along (c : Condition)
    (h : ∀ s ∈ c.series, columns s = along size (numbers s)) :
    c.signals size columns = along size (c.signalAt numbers) := by
  induction c using Condition.induct with
  | comparison relation first second =>
    rw [signals, h first (by simp [series]), h second (by simp [series]), Signals.related_along,
      Signals.mark_along]
    rfl
  | all cs ih =>
    rw [signals, signalsOfAll_eq_along h ih]
    by_cases hne : cs = []
    · subst hne
      exact (Signals.replicate_none_eq_along size).trans rfl
    · rw [Signals.all_along _ hne]
      exact congrArg (along size) (funext fun i => (signalAt_all numbers hne i).symm)
  | any cs ih =>
    rw [signals, signalsOfAll_eq_along h ih, Signals.any_along]
    refine congrArg (along size) (funext fun i => ?_)
    rw [foldl_signalAt, signalAt_any, Option.or_none]
  | after base days ih =>
    rw [signals, ih h, Signals.delayed_along]
    exact congrArg (along size) (funext fun i => (signalAt_after numbers base days i).symm)
  | changeOver s percent days =>
    rw [signals, h s (by simp [series]), Signals.changed_along, Signals.mark_along]
    rfl
  | change s percent =>
    rw [signals, h s (by simp [series]), Signals.changed_along, Signals.mark_along]
    rfl
  | trend direction s days =>
    rw [signals, h s (by simp [series]), Signals.trending_along, Signals.mark_along]
    rfl

end Condition

/-! ### What the source answered -/

namespace BarTable

open Column (along)

variable {σ : Type} {source : SeriesSource (StateM σ)} {t u : BarTable} {β γ : Type}

/-- **Whatever is kept was kept before or is an answer of the source,** for the series under whose
text it is kept. -/
theorem Reads.answered (h : Reads source t u) {s : Series} {values : List Float}
    (hs : u.cache.get? s.text = some values) : t.cache.get? s.text = some values ∨
      ∃ v k, Reads source t v ∧ values = source.column v k s := by
  induction h with
  | none => exact .inl hs
  | more hreads other k _ ih =>
    change (Dictionary.put _ other.text _).get? s.text = some values at hs
    rw [Dictionary.get?_put] at hs
    split at hs
    · next htext =>
      obtain rfl := Series.text_injective htext
      exact .inr ⟨_, k, hreads, (Option.some.inj hs).symm⟩
    · exact ih hs

/-- A computation that only reads, and after which some series are kept. -/
def Keeps (source : SeriesSource (StateM σ)) (ss : List Series)
    (x : StateT BarTable (StateM σ) β) : Prop :=
  ∀ t k, Reads source t (x t k).1.2 ∧
    ∀ s ∈ ss, ∃ values, (x t k).1.2.cache.get? s.text = some values

theorem Keeps.pure (a : β) : Keeps source [] (Pure.pure a) :=
  fun t _ => ⟨.none t, fun _ h => nomatch h⟩

theorem keeps_get : Keeps source [] get :=
  fun t _ => ⟨.none t, fun _ h => nomatch h⟩

/-- What is kept after a computation is kept after the next one too. -/
theorem Keeps.bind {ss ss' : List Series} {x : StateT BarTable (StateM σ) β}
    {f : β → StateT BarTable (StateM σ) γ} (hx : Keeps source ss x)
    (hf : ∀ a, Keeps source ss' (f a)) : Keeps source (ss ++ ss') (x >>= f) := by
  intro t k
  obtain ⟨hreads, hkept⟩ := hx t k
  obtain ⟨hmore, hkept'⟩ := hf (x t k).1.1 (x t k).1.2 (x t k).2
  refine ⟨hreads.trans hmore, fun s hs => ?_⟩
  rcases List.mem_append.1 hs with hs | hs
  · obtain ⟨values, hvalues⟩ := hkept s hs
    exact ⟨values, hmore.get?_eq hvalues⟩
  · exact hkept' s hs

/-- The next computation need not keep anything. -/
theorem Keeps.andThen {ss : List Series} {x : StateT BarTable (StateM σ) β}
    {f : β → StateT BarTable (StateM σ) γ} (hx : Keeps source ss x)
    (hf : ∀ a, Keeps source [] (f a)) : Keeps source ss (x >>= f) :=
  ss.append_nil ▸ hx.bind hf

theorem keeps_resolve (s : Series) : Keeps source [s] (resolve source s) := by
  intro t k
  have hsees : Sees source t.size _ (resolve source s) := sees_resolve s
  refine ⟨(hsees t k rfl).1, fun other hother => ?_⟩
  obtain rfl := List.mem_singleton.1 hother
  rw [run_resolve]
  rcases hcache : t.cache.get? other.text with _ | values
  · exact ⟨_, (Dictionary.get?_put ..).trans (if_pos rfl)⟩
  · exact ⟨values, hcache⟩

theorem keeps_evaluateAll {cs : List Condition}
    (h : ∀ c ∈ cs, Keeps source c.series (evaluate source c)) :
    Keeps source (Condition.seriesOfAll cs) (evaluateAll source cs) := by
  induction cs with
  | nil => exact .pure _
  | cons c cs ih =>
    refine (h c List.mem_cons_self).bind fun signals => ?_
    exact (ih fun d hd => h d (List.mem_cons_of_mem c hd)).andThen fun rest => .pure _

/-- **After an evaluation every series of the condition is kept.** -/
theorem keeps_evaluate (c : Condition) : Keeps source c.series (evaluate source c) := by
  induction c using Condition.induct with
  | comparison relation first second =>
    exact (keeps_resolve first).bind fun a => (keeps_resolve second).andThen fun b => .pure _
  | all cs ih | any cs ih =>
    exact (keeps_evaluateAll ih).andThen fun results => keeps_get.andThen fun t => .pure _
  | after base days ih => exact ih.andThen fun signals => .pure _
  | changeOver s percent days | change s percent | trend direction s days =>
    exact (keeps_resolve s).andThen fun values => .pure _

/-- The flags of signals that are given bar by bar. -/
theorem flags_along (numbers : Series → ℕ → Float) (c : Condition) (size : ℕ) :
    Signals.flags (along size (c.signalAt numbers)) = along size (c.holdsAt numbers) := by
  rw [Signals.flags, Column.map_along]
  refine congrArg (along size) (funext fun i => ?_)
  rw [Condition.signalAt]
  cases c.holdsAt numbers i <;> rfl

/-- The numbers of series on each bar, as a table keeps them. -/
def keptAt (t : BarTable) (s : Series) (i : ℕ) : Float := (t.kept s)[i]?.getD Quantity.missing

/-- The numbers that a source answers for series over a table, and missing ones where it answers
too few. -/
def answeredAt (source : SeriesSource (StateM σ)) (t : BarTable) (k : σ) (s : Series) (i : ℕ) :
    Float :=
  (source s t k).1[i]?.getD Quantity.missing

/-- **An evaluation over a new table means what the condition means, bar by bar.** For each
series that the condition reads the table keeps what the source answered when it was asked, cut
off or filled up with missing numbers. On each bar the flag is set if the condition holds there
for these numbers, and the label says what holds. If the source goes by the ticker and the bars,
these are the numbers that it answers for the new table. -/
theorem evaluate_eq_along (source : SeriesSource (StateM σ)) (ticker : String)
    (bars : List (Bar Float)) (c : Condition) (k : σ) :
    let fresh := BarTable.ofBars ticker bars
    let done := evaluate source c fresh k
    (∀ s ∈ c.series, ∃ t l, Reads source fresh t ∧
      done.1.2.kept s = along fresh.size (answeredAt source t l s)) ∧
    (done.1.1 = along fresh.size (c.signalAt done.1.2.keptAt) ∧
      done.1.1.flags = along fresh.size (c.holdsAt done.1.2.keptAt)) ∧
    (source.ReadsBars → done.1.1 = along fresh.size (c.signalAt (answeredAt source fresh k)) ∧
      done.1.1.flags = along fresh.size (c.holdsAt (answeredAt source fresh k))) := by
  intro fresh done
  obtain ⟨hreads, hsignals⟩ := evaluate_spec source c fresh k
  have hkept : ∀ s ∈ c.series, ∃ t l, Reads source fresh t ∧
      done.1.2.kept s = along fresh.size (answeredAt source t l s) := by
    intro s hs
    obtain ⟨values, hvalues⟩ := (keeps_evaluate c fresh k).2 s hs
    obtain h | ⟨t, l, ht, rfl⟩ := hreads.answered hvalues
    · cases h
    · refine ⟨t, l, ht, ?_⟩
      rw [kept, hvalues, Option.getD_some, SeriesSource.column, Column.fit_eq_along, ht.size_eq]
      rfl
  have hsignals' : done.1.1 = along fresh.size (c.signalAt done.1.2.keptAt) := by
    rw [hsignals _ (keepsOnly_kept _)]
    refine c.signals_eq_along fun s hs => ?_
    obtain ⟨t, l, -, h⟩ := hkept s hs
    exact (Column.along_getD _ (by rw [h, Column.length_along])).symm
  refine ⟨hkept, ⟨hsignals', ?_⟩, fun hsource => ?_⟩
  · rw [hsignals', flags_along]
  · have hcolumn : done.1.1 = c.signals fresh.size (source.column fresh k) :=
      (Reached.fresh.sound hsource k).evaluate_eq hsource c k
    have hanswered : done.1.1 = along fresh.size (c.signalAt (answeredAt source fresh k)) :=
      hcolumn.trans (c.signals_eq_along fun s _ => Column.fit_eq_along _ _ _)
    exact ⟨hanswered, by rw [hanswered, flags_along]⟩

/-- Three days of rising closes. -/
def risingBars : List (Bar Float) :=
  [⟨⟨2024, 1, 1, .refl true⟩, 10, 10, 10, 10, 1⟩, ⟨⟨2024, 1, 2, .refl true⟩, 12, 12, 12, 12, 1⟩,
    ⟨⟨2024, 1, 3, .refl true⟩, 13, 13, 13, 13, 1⟩]

/-- The close is above a level, or was below it a day ago. -/
def aboveOrBelow : Condition :=
  .any [.comparison .above (.price "A" .close) (.constant 11),
    .after (.comparison .below (.price "A" .close) (.constant 11)) 1]

/-- On the second day both hold, and the later one is spoken of. -/
theorem evaluate_eq_along_aboveOrBelow :
    let fresh := BarTable.ofBars "A" risingBars
    let meaning := along 3 (aboveOrBelow.signalAt (answeredAt ownSource fresh ()))
    ownSource.ReadsBars ∧ (evaluate ownSource aboveOrBelow fresh ()).1.1 = meaning ∧
      meaning = [none,
        some ("AfterXDaysSignal(1, " ++
          "LessThanSignal(PRICE('A', price_type=PriceType.CLOSE), CONST(11)))"),
        some "GreaterThanSignal(PRICE('A', price_type=PriceType.CLOSE), CONST(11))"] := by
  intro fresh meaning
  have hsource : ownSource.ReadsBars := SeriesSource.readsBars_ofBars .empty
  have hbars : Bar.daily risingBars = risingBars := by
    rw [Bar.daily, Bar.sorted, List.mergeSort_of_pairwise]
    · rfl
    · decide
  have hsize : fresh.size = 3 := congrArg List.length hbars
  have hevaluate := ((evaluate_eq_along ownSource "A" risingBars aboveOrBelow ()).2.2 hsource).1
  refine ⟨hsource, hevaluate.trans (congrArg (along · _) hsize), ?_⟩
  simp only [meaning, fresh, BarTable.ofBars, hbars]
  decide +kernel

end BarTable

end TradeSignals
