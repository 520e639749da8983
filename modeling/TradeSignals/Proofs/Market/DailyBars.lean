import Mathlib.Data.List.Induction
import Mathlib.Data.List.Nodup
import TradeSignals.Market.BarTable
import TradeSignals.Proofs.Market.BarOrder

/-!
# One bar for each day

The bars of a table come from bars in any order, of which several may belong to one day. The table
has one for each of these days, in order of date: the one that was given last
(`TradeSignals.BarTable.ofBars_oneForEachDay`).

Everything about the bars that are kept follows from one equation. Sorting does not change the
order of the bars of a day, and of these the last one is kept, so the bars of a day that are kept
are the last of those that were given for it (`TradeSignals.Bar.onDay_daily`). And bars in order of
date are determined by what they have of each day, so that nothing else could be in the table.

The bar of a day is searched for. A map from days to places, filled from the bars of the table, has
the same answers (`TradeSignals.BarTable.dayIndex_eq_index?`).
-/

namespace TradeSignals

theorem Date.lt_of_le_of_ne {a b : Date} (hle : a ≤ b) (hne : a ≠ b) : a < b := by
  rcases Date.lt_trichotomy a b with hlt | heq | hgt
  · exact hlt
  · exact absurd heq hne
  · exact absurd hle (Int.not_le.2 hgt)

/-- In a list with one more element behind, an element has its old place or is the new one. -/
theorem getElem?_concat_eq_some_iff {α : Type} {l : List α} {a b : α} {i : ℕ} :
    (l ++ [a])[i]? = some b ↔ l[i]? = some b ∨ i = l.length ∧ a = b := by
  rcases Nat.lt_trichotomy i l.length with hlt | rfl | hgt
  · rw [List.getElem?_append_left hlt, or_iff_left fun h => Nat.ne_of_lt hlt h.1]
  · rw [List.getElem?_concat_length, List.getElem?_eq_none (Nat.le_refl _)]
    simp
  · rw [List.getElem?_append_right (Nat.le_of_lt hgt), List.getElem?_eq_none (Nat.le_of_lt hgt),
      List.getElem?_eq_none (Nat.sub_pos_of_lt hgt)]
    simp [Nat.ne_of_gt hgt]

namespace Bar

variable {α : Type} {bar : Bar α} {bars rest : List (Bar α)} {day : Date}

theorem onDay_eq_nil_iff : onDay day bars = [] ↔ day ∉ bars.map Bar.date := by
  rw [onDay, List.filter_eq_nil_iff, List.mem_map, not_exists]
  simp only [decide_eq_true_eq, not_and]

/-! ### Bars in order of date -/

/-- The first bar that is kept belongs to the first day. -/
theorem exists_lastOfEachDay_cons (bar : Bar α) (rest : List (Bar α)) :
    ∃ kept more, lastOfEachDay (bar :: rest) = kept :: more ∧ kept.date = bar.date := by
  rw [lastOfEachDay]
  split
  next => exact ⟨bar, [], rfl, rfl⟩
  next next more _ =>
    split
    next hdate => exact ⟨next, more, rfl, hdate.symm⟩
    next => exact ⟨bar, next :: more, rfl, rfl⟩

/-- **A bar is dropped** if another one of its day comes later. -/
theorem lastOfEachDay_cons (h : (bar :: rest).Pairwise fun a b => a.date ≤ b.date) :
    lastOfEachDay (bar :: rest) =
      if bar.date ∈ rest.map Bar.date then lastOfEachDay rest else bar :: lastOfEachDay rest := by
  rcases rest with _ | ⟨next, more⟩
  · rfl
  · obtain ⟨kept, others, hkept, hdate⟩ := exists_lastOfEachDay_cons next more
    -- In order of date, a day that comes again comes again at once.
    have hagain : bar.date = kept.date ↔ bar.date ∈ (next :: more).map Bar.date := by
      rw [hdate]
      refine ⟨fun heq => List.mem_map.2 ⟨next, List.mem_cons_self, heq.symm⟩, fun hmem => ?_⟩
      obtain ⟨other, hother, heq⟩ := List.mem_map.1 hmem
      refine Date.le_antisymm (List.rel_of_pairwise_cons h List.mem_cons_self) ?_
      rcases List.mem_cons.1 hother with rfl | hmore
      · exact heq ▸ Int.le_refl _
      · exact heq ▸ List.rel_of_pairwise_cons h.of_cons hmore
    rw [lastOfEachDay, hkept]
    exact if_congr hagain rfl rfl

/-- Of the bars of a day the last one is kept, where they stand together. -/
theorem onDay_lastOfEachDay (h : bars.Pairwise fun a b => a.date ≤ b.date) (day : Date) :
    onDay day (lastOfEachDay bars) = (onDay day bars).getLast?.toList := by
  induction bars with
  | nil => rfl
  | cons bar rest ih =>
    have hrest := ih h.of_cons
    rw [lastOfEachDay_cons h]
    by_cases hday : bar.date = day
    · rw [onDay_cons_self hday, hday]
      split
      next hmem =>
        rw [hrest, List.getLast?_cons_of_ne_nil fun hnone => onDay_eq_nil_iff.1 hnone hmem]
      next hnone =>
        rw [onDay_cons_self hday, hrest, onDay_eq_nil_iff.2 hnone]
        rfl
    · rw [onDay_cons_of_ne hday, ← hrest]
      split
      · rfl
      · exact onDay_cons_of_ne hday

/-- Of bars in order of date one is kept for each day. -/
theorem nodup_dates_lastOfEachDay (h : bars.Pairwise fun a b => a.date ≤ b.date) :
    ((lastOfEachDay bars).map Bar.date).Nodup := by
  induction bars with
  | nil => exact List.nodup_nil
  | cons bar rest ih =>
    rw [lastOfEachDay_cons h]
    split
    next => exact ih h.of_cons
    next hnone =>
      have hsub := (sublist_lastOfEachDay rest).map Bar.date
      exact List.nodup_cons.2 ⟨fun hmem => hnone (hsub.subset hmem), ih h.of_cons⟩

/-- If no day is repeated, all bars are kept. -/
theorem lastOfEachDay_of_nodup (h : (bars.map Bar.date).Nodup) : lastOfEachDay bars = bars := by
  induction bars with
  | nil => rfl
  | cons bar rest ih =>
    obtain ⟨hfirst, hrest⟩ := List.nodup_cons.1 h
    rw [lastOfEachDay, ih hrest]
    rcases rest with _ | ⟨next, more⟩
    · rfl
    · refine if_neg fun hdate => hfirst ?_
      rw [hdate]
      exact List.mem_cons_self

/-! ### Bars in any order -/

/-- **Of the bars of a day the last one is kept.** -/
theorem onDay_daily (day : Date) (bars : List (Bar α)) :
    onDay day (daily bars) = (onDay day bars).getLast?.toList := by
  rw [daily, onDay_lastOfEachDay (pairwise_sorted bars), onDay_sorted]

theorem mem_dates_daily : day ∈ (daily bars).map Bar.date ↔ day ∈ bars.map Bar.date := by
  rw [← not_iff_not, ← onDay_eq_nil_iff, onDay_daily, Option.toList_eq_nil_iff,
    List.getLast?_eq_none_iff, onDay_eq_nil_iff]

theorem mem_of_mem_daily {bar : Bar α} (h : bar ∈ daily bars) : bar ∈ bars :=
  List.mem_mergeSort.1 (mem_of_mem_lastOfEachDay h)

/-- **The days of the bars that are kept** come one after the other. -/
theorem pairwise_dates_daily (bars : List (Bar α)) :
    ((daily bars).map Bar.date).Pairwise (· < ·) := by
  have hle := (pairwise_sorted bars).sublist (sublist_lastOfEachDay (sorted bars))
  have hne := List.pairwise_map.1 (nodup_dates_lastOfEachDay (pairwise_sorted bars))
  exact List.pairwise_map.2 ((hle.and hne).imp fun h => Date.lt_of_le_of_ne h.1 h.2)

/-- If no day is repeated, bars with one for each day are all bars in order of date. -/
theorem daily_of_nodup (h : (bars.map Bar.date).Nodup) : daily bars = sorted bars :=
  lastOfEachDay_of_nodup (((List.mergeSort_perm bars notAfter).map Bar.date).nodup_iff.2 h)

/-- One bar for each day, in order, is what there is already. -/
theorem daily_daily (bars : List (Bar α)) : daily (daily bars) = daily bars := by
  have hdates := List.pairwise_map.1 (pairwise_dates_daily bars)
  have hnodup : ((daily bars).map Bar.date).Nodup :=
    nodup_dates_lastOfEachDay (pairwise_sorted bars)
  rw [daily_of_nodup hnodup]
  exact List.mergeSort_of_pairwise (hdates.imp fun h => notAfter_iff.2 (Int.le_of_lt h))

/-- If no day is repeated, it does not matter in which order the bars are given. -/
theorem daily_perm {others : List (Bar α)} (h : bars.Perm others)
    (hnodup : (bars.map Bar.date).Nodup) : daily others = daily bars := by
  rw [daily_of_nodup hnodup, daily_of_nodup ((h.map Bar.date).nodup_iff.1 hnodup)]
  have hperm : (sorted others).Perm (sorted bars) :=
    (List.mergeSort_perm others notAfter).trans
      (h.symm.trans (List.mergeSort_perm bars notAfter).symm)
  refine hperm.eq_of_pairwise (fun a b ha hb hab hba => ?_) (pairwise_sorted others)
    (pairwise_sorted bars)
  -- Two bars of the same day are the same bar.
  have ha : a ∈ bars := h.mem_iff.2 (List.mem_mergeSort.1 ha)
  exact List.inj_on_of_nodup_map hnodup ha (List.mem_mergeSort.1 hb) (Date.le_antisymm hab hba)

/-- **The last bar that is given for its day.** -/
def IsLastOfDay (bars : List (Bar α)) (bar : Bar α) : Prop :=
  ∃ before after, bars = before ++ bar :: after ∧ ∀ later ∈ after, later.date ≠ bar.date

theorem getLast?_onDay_eq_some_iff :
    (onDay bar.date bars).getLast? = some bar ↔ IsLastOfDay bars bar := by
  rw [onDay, List.getLast?_filter, List.find?_eq_some_iff_append]
  constructor
  · rintro ⟨-, after, before, hbars, hafter⟩
    refine ⟨before.reverse, after.reverse, ?_, fun later hlater => ?_⟩
    · rw [← List.reverse_reverse bars, hbars]
      simp
    · simpa using hafter later (List.mem_reverse.1 hlater)
  · rintro ⟨before, after, rfl, hafter⟩
    refine ⟨decide_eq_true rfl, after.reverse, before.reverse, by simp, fun later hlater => ?_⟩
    simpa using hafter later (List.mem_reverse.1 hlater)

/-- **A bar is kept** if it is the last one that is given for its day. -/
theorem mem_daily_iff : bar ∈ daily bars ↔ IsLastOfDay bars bar := by
  have hday : bar ∈ onDay bar.date (daily bars) ↔ bar ∈ daily bars := by
    rw [mem_onDay, and_iff_left rfl]
  rw [← hday, onDay_daily, Option.mem_toList, ← getLast?_onDay_eq_some_iff]

end Bar

/-! ### Tables -/

namespace BarTable

variable {t : BarTable}

/-- **Nothing has been done with a table:** no series is kept, and each column has an empty entry
for each bar. -/
structure Unused (t : BarTable) : Prop where
  /-- No series is kept. -/
  cache : t.cache = .empty
  /-- Nothing is bought. -/
  buy : t.buy = List.replicate t.size false
  /-- Nothing is sold. -/
  sell : t.sell = List.replicate t.size false
  /-- There is no reason to buy. -/
  buySignals : t.buySignals = List.replicate t.size none
  /-- There is no reason to sell. -/
  sellSignals : t.sellSignals = List.replicate t.size none
  /-- The long side does not change. -/
  long : t.long = List.replicate t.size none
  /-- The short side does not change. -/
  short : t.short = List.replicate t.size none

theorem unused_ofBars (ticker : String) (bars : List (Bar Float)) : (ofBars ticker bars).Unused :=
  ⟨rfl, rfl, rfl, rfl, rfl, rfl, rfl⟩

/-- **Where the bar of a day is,** if the days come one after the other. -/
theorem index?_eq_some_iff (h : t.dates.Pairwise (· < ·)) {day : Date} {i : ℕ} :
    t.index? day = some i ↔ ∃ bar, t.bars[i]? = some bar ∧ bar.date = day := by
  have hget : (∃ bar, t.bars[i]? = some bar ∧ bar.date = day) ↔ t.dates[i]? = some day := by
    rw [dates, List.getElem?_map, Option.map_eq_some_iff]
  rw [hget, index?, List.findIdx?_eq_some_iff_getElem, List.getElem?_eq_some_iff]
  refine exists_congr fun hi => ?_
  rw [decide_eq_true_iff, and_iff_left_of_imp]
  -- No day before it is the same, since all of them are earlier.
  intro heq j hji hj
  have hlt := List.pairwise_iff_getElem.1 h j i (Nat.lt_trans hji hi) hi hji
  rw [of_decide_eq_true hj, heq] at hlt
  exact Int.lt_irrefl _ hlt

theorem index?_eq_none_iff {day : Date} : t.index? day = none ↔ day ∉ t.dates := by
  rw [index?, List.findIdx?_eq_none_iff]
  simp only [decide_eq_false_iff_not]
  exact ⟨fun h hmem => h day hmem rfl, fun h d hd heq => h (heq ▸ hd)⟩

/-- **The map from days to places** that goes with bars: it is filled bar by bar, and a day that
comes again gets its new place. -/
def dayIndex (bars : List (Bar Float)) : Date → Option ℕ :=
  bars.zipIdx.foldl (fun index b => Function.update index b.1.date (some b.2)) fun _ => none

/-- One more bar takes its day to the place behind all others. -/
theorem dayIndex_concat (bars : List (Bar Float)) (bar : Bar Float) :
    dayIndex (bars ++ [bar]) = Function.update (dayIndex bars) bar.date (some bars.length) := by
  rw [dayIndex, List.zipIdx_append, List.foldl_append, Nat.zero_add]
  rfl

/-- Where no day is repeated, the map has the places of the bars. -/
theorem dayIndex_eq_some_iff {bars : List (Bar Float)} (h : (bars.map Bar.date).Nodup) {day : Date}
    {i : ℕ} : dayIndex bars day = some i ↔ ∃ bar, bars[i]? = some bar ∧ bar.date = day := by
  induction bars using List.reverseRecOn with
  | nil =>
    constructor
    · intro hnone
      cases hnone
    · rintro ⟨bar, hnone, -⟩
      cases hnone
  | append_singleton bars last ih =>
    rw [List.map_append, List.map_singleton, ← List.concat_eq_append, List.nodup_concat] at h
    obtain ⟨hnew, hnodup⟩ := h
    rw [dayIndex_concat]
    by_cases hday : last.date = day
    · subst hday
      rw [Function.update_self, Option.some_inj]
      constructor
      · rintro rfl
        exact ⟨last, List.getElem?_concat_length, rfl⟩
      · rintro ⟨bar, hbar, hdate⟩
        rcases getElem?_concat_eq_some_iff.1 hbar with hold | ⟨hi, -⟩
        · exact absurd (hdate ▸ List.mem_map_of_mem (List.mem_of_getElem? hold)) hnew
        · exact hi.symm
    · rw [Function.update_of_ne (Ne.symm hday), ih hnodup]
      refine exists_congr fun bar => and_congr_left fun hdate => ?_
      rw [getElem?_concat_eq_some_iff, or_iff_left]
      rintro ⟨-, rfl⟩
      exact hday hdate

/-- **The map finds a day where the search does,** if the days come one after the other. -/
theorem dayIndex_eq_index? (h : t.dates.Pairwise (· < ·)) (day : Date) :
    dayIndex t.bars day = t.index? day := by
  have hne : ∀ {a b : Date}, a < b → a ≠ b := fun hlt heq => Int.ne_of_lt hlt (congrArg _ heq)
  have hnodup : (t.bars.map Bar.date).Nodup := h.imp hne
  exact Option.ext fun i => (dayIndex_eq_some_iff hnodup).trans (index?_eq_some_iff h).symm

/-- **A table has one bar for each day that was given,** the last one that was given for it, and
these in order of date; so a day is found where its bar is, and no other day is found, by the search
as by the map that is filled from the bars. Nothing has been done with the table. Made anew from its
own bars the table is the same, and if no day is repeated the order in which the bars are given does
not matter. -/
theorem ofBars_oneForEachDay (ticker : String) (bars : List (Bar Float)) :
    let t := ofBars ticker bars
    t.ticker = ticker ∧ t.dates.Pairwise (· < ·) ∧
    (∀ day, day ∈ t.dates ↔ day ∈ bars.map Bar.date) ∧
    (∀ bar, bar ∈ t.bars ↔ Bar.IsLastOfDay bars bar) ∧
    (∀ day i, t.index? day = some i ↔ ∃ bar, t.bars[i]? = some bar ∧ bar.date = day) ∧
    (∀ day, t.index? day = none ↔ day ∉ bars.map Bar.date) ∧
    (∀ day, dayIndex t.bars day = t.index? day) ∧
    t.Unused ∧ ofBars ticker t.bars = t ∧
    ∀ others, bars.Perm others → (bars.map Bar.date).Nodup → ofBars ticker others = t := by
  intro t
  have hdates : t.dates.Pairwise (· < ·) := Bar.pairwise_dates_daily bars
  have hday : ∀ day, day ∈ t.dates ↔ day ∈ bars.map Bar.date := fun _ => Bar.mem_dates_daily
  have hsame : ∀ others, Bar.daily others = Bar.daily bars → ofBars ticker others = t := by
    intro others h
    rw [ofBars, h]
    rfl
  refine ⟨rfl, hdates, hday, fun _ => Bar.mem_daily_iff, fun _ _ => index?_eq_some_iff hdates,
    fun day => index?_eq_none_iff.trans (not_congr (hday day)), dayIndex_eq_index? hdates,
    unused_ofBars ticker bars, ?_, ?_⟩
  · exact hsame _ (Bar.daily_daily bars)
  · exact fun others h hnodup => hsame others (Bar.daily_perm h hnodup)

/-- A bar of a day. -/
def flatBar (date : Date) (price : Float) : Bar Float := ⟨date, price, price, price, price, 100⟩

/-- The bars of three days may be given in another order. -/
theorem ofBars_oneForEachDay_shuffled :
    let first := flatBar ⟨2024, 1, 1, by decide⟩ 10
    let second := flatBar ⟨2024, 1, 2, by decide⟩ 11
    let third := flatBar ⟨2024, 1, 3, by decide⟩ 12
    [third, first, second].Perm [first, second, third] ∧
      ([third, first, second].map Bar.date).Nodup ∧
      ofBars "A" [first, second, third] = ofBars "A" [third, first, second] := by
  intro first second third
  have hperm : [third, first, second].Perm [first, second, third] :=
    show ([third] ++ [first, second]).Perm ([first, second] ++ [third]) from List.perm_append_comm
  have hnodup : ([third, first, second].map Bar.date).Nodup := by decide
  obtain ⟨-, -, -, -, -, -, -, -, -, hsame⟩ := ofBars_oneForEachDay "A" [third, first, second]
  exact ⟨hperm, hnodup, hsame _ hperm hnodup⟩

end BarTable

end TradeSignals
