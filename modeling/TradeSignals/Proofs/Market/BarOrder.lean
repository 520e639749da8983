import TradeSignals.Proofs.Market.Causal

/-!
# Bars up to a day

Of the same stored bars a run that ends later sees all that one that ends earlier sees,
and more. The stored bars may be in any order, so the additional ones may stand anywhere
between the others; but once they are sorted they all come last, because sorting keeps
bars of one day in the order in which they were given
(`TradeSignals.Bar.sorted_between`). So the bars of the shorter run are a prefix of those
of the longer one, also after only the last bar of each day was kept
(`TradeSignals.Bar.daily_between`), and what follows them belongs to later days.
-/

namespace TradeSignals

namespace Bar

variable {α : Type}

/-! ### Sorting is stable -/

theorem notAfter_iff {a b : Bar α} : a.notAfter b = true ↔ a.date ≤ b.date :=
  decide_eq_true_iff

theorem notAfter_trans (a b c : Bar α) (hab : a.notAfter b = true) (hbc : b.notAfter c = true) :
    a.notAfter c = true :=
  notAfter_iff.mpr (Date.le_trans (notAfter_iff.mp hab) (notAfter_iff.mp hbc))

theorem notAfter_total (a b : Bar α) : (a.notAfter b || b.notAfter a) = true := by
  rw [Bool.or_eq_true, notAfter_iff, notAfter_iff]
  exact Date.le_total a.date b.date

theorem pairwise_sorted (bars : List (Bar α)) :
    (sorted bars).Pairwise fun a b => a.date ≤ b.date :=
  (List.pairwise_mergeSort notAfter_trans notAfter_total bars).imp notAfter_iff.mp

theorem sorted_eq_self {bars : List (Bar α)} (h : bars.Pairwise fun a b => a.date ≤ b.date) :
    sorted bars = bars :=
  List.mergeSort_of_pairwise (h.imp notAfter_iff.mpr)

/-- The bars of one day. -/
def onDay (day : Date) (bars : List (Bar α)) : List (Bar α) :=
  bars.filter fun bar => bar.date = day

theorem mem_onDay {day : Date} {bars : List (Bar α)} {bar : Bar α} :
    bar ∈ onDay day bars ↔ bar ∈ bars ∧ bar.date = day := by
  rw [onDay, List.mem_filter, decide_eq_true_iff]

theorem onDay_cons_self {day : Date} {bar : Bar α} {rest : List (Bar α)} (h : bar.date = day) :
    onDay day (bar :: rest) = bar :: onDay day rest :=
  List.filter_cons_of_pos (decide_eq_true h)

theorem onDay_cons_of_ne {day : Date} {bar : Bar α} {rest : List (Bar α)} (h : bar.date ≠ day) :
    onDay day (bar :: rest) = onDay day rest :=
  List.filter_cons_of_neg (mt of_decide_eq_true h)

/-- **Sorting is stable:** the bars of one day keep their order. -/
theorem onDay_sorted (day : Date) (bars : List (Bar α)) :
    onDay day (sorted bars) = onDay day bars := by
  have hday : (onDay day bars).Pairwise fun a b => a.notAfter b = true := by
    refine List.pairwise_of_forall_mem_list fun a ha b hb => notAfter_iff.mpr ?_
    rw [(mem_onDay.mp ha).2, (mem_onDay.mp hb).2]
    exact Int.le_refl _
  -- The bars of the day are in order already, so they are found in the sorted list as they are.
  have hsub : (onDay day bars).Sublist (sorted bars) :=
    List.sublist_mergeSort notAfter_trans notAfter_total hday List.filter_sublist
  have hsame : onDay day (onDay day bars) = onDay day bars :=
    List.filter_eq_self.mpr fun bar hbar => decide_eq_true (mem_onDay.mp hbar).2
  have hlength : (onDay day (sorted bars)).length = (onDay day bars).length :=
    ((List.mergeSort_perm bars notAfter).filter _).length_eq
  refine (List.Sublist.eq_of_length ?_ hlength.symm).symm
  rw [← hsame]
  exact hsub.filter _

/-- Two lists in order of date that have the same bars of each day, in the same order, are
the same. -/
theorem eq_of_onDay_eq {bars others : List (Bar α)}
    (h : bars.Pairwise fun a b => a.date ≤ b.date)
    (h' : others.Pairwise fun a b => a.date ≤ b.date)
    (hdays : ∀ day, onDay day bars = onDay day others) : bars = others := by
  -- Take the first bars off both lists: being first in order, they are first of their day.
  induction bars generalizing others with
  | nil =>
    rcases others with _ | ⟨other, more⟩
    · rfl
    · have hnone := hdays other.date
      rw [onDay_cons_self rfl] at hnone
      cases hnone
  | cons bar rest ih =>
    have hmem : ∀ x, x ∈ bar :: rest ↔ x ∈ others := by
      intro x
      have hiff : x ∈ onDay x.date (bar :: rest) ↔ x ∈ onDay x.date others := by
        rw [hdays]
      rwa [mem_onDay, mem_onDay, and_iff_left rfl, and_iff_left rfl] at hiff
    rcases others with _ | ⟨other, more⟩
    · exact absurd ((hmem bar).mp List.mem_cons_self) List.not_mem_nil
    · -- Each of the two first bars comes no later than the other, so they share a day.
      have hle : bar.date ≤ other.date := by
        rcases List.mem_cons.mp ((hmem other).mpr List.mem_cons_self) with rfl | hother
        · exact Int.le_refl _
        · exact List.rel_of_pairwise_cons h hother
      have hge : other.date ≤ bar.date := by
        rcases List.mem_cons.mp ((hmem bar).mp List.mem_cons_self) with rfl | hbar
        · exact Int.le_refl _
        · exact List.rel_of_pairwise_cons h' hbar
      have hfirst := hdays bar.date
      rw [onDay_cons_self rfl, onDay_cons_self (Date.le_antisymm hge hle)] at hfirst
      obtain ⟨rfl, hrest⟩ := List.cons_eq_cons.mp hfirst
      refine congrArg (bar :: ·) (ih h.of_cons h'.of_cons fun day => ?_)
      by_cases hday : bar.date = day
      · rw [← hday]
        exact hrest
      · have hother := hdays day
        rwa [onDay_cons_of_ne hday, onDay_cons_of_ne hday] at hother

/-- Sorting and leaving out the bars of some days may be done in either order. -/
theorem sorted_filter_date (p : Date → Bool) (bars : List (Bar α)) :
    sorted (bars.filter fun bar => p bar.date) = (sorted bars).filter fun bar => p bar.date := by
  refine eq_of_onDay_eq (pairwise_sorted _) ((pairwise_sorted bars).filter _) fun day => ?_
  -- Both sides are in order, and of each day they have the same bars.
  have hswap : ∀ xs : List (Bar α), onDay day (xs.filter fun bar => p bar.date) =
      (onDay day xs).filter fun bar => p bar.date := by
    intro xs
    rw [onDay, onDay, List.filter_filter, List.filter_filter]
    exact List.filter_congr fun bar _ => Bool.and_comm _ _
  rw [onDay_sorted, hswap, hswap, onDay_sorted]

/-! ### The bars of some days -/

theorem between_eq_self {start finish : Date} {bars : List (Bar α)}
    (h : ∀ bar ∈ bars, start ≤ bar.date ∧ bar.date ≤ finish) : between start finish bars = bars :=
  List.filter_eq_self.mpr fun bar hbar => by simp [Date.notAfter, h bar hbar]

/-- Sorting and leaving out the bars of other days may be done in either order. -/
theorem between_sorted (start finish : Date) (bars : List (Bar α)) :
    between start finish (sorted bars) = sorted (between start finish bars) :=
  (sorted_filter_date (fun day => start.notAfter day && day.notAfter finish) bars).symm

/-- Of the bars of some days, those of days among them. -/
theorem between_between {start finish start' finish' : Date}
    (h : ∀ day, start' ≤ day → day ≤ finish' → start ≤ day ∧ day ≤ finish) (bars : List (Bar α)) :
    between start' finish' (between start finish bars) = between start' finish' bars := by
  rw [between, between, between, List.filter_filter]
  refine List.filter_congr fun bar _ => ?_
  rw [Bool.eq_iff_iff]
  simp only [Bool.and_eq_true, Date.notAfter, decide_eq_true_iff]
  exact ⟨fun hbar => hbar.1, fun hbar => ⟨hbar, h _ hbar.1 hbar.2⟩⟩

/-! ### The bars up to a day come first -/

/-- The bars up to a day. -/
def upTo (finish : Date) (bars : List (Bar α)) : List (Bar α) :=
  bars.filter fun bar => bar.date.notAfter finish

/-- The bars of the days after a day. -/
def beyond (finish : Date) (bars : List (Bar α)) : List (Bar α) :=
  bars.filter fun bar => !bar.date.notAfter finish

theorem mem_upTo {finish : Date} {bars : List (Bar α)} {bar : Bar α} :
    bar ∈ upTo finish bars ↔ bar ∈ bars ∧ bar.date ≤ finish := by
  rw [upTo, List.mem_filter, Date.notAfter, decide_eq_true_iff]

theorem mem_beyond {finish : Date} {bars : List (Bar α)} {bar : Bar α} :
    bar ∈ beyond finish bars ↔ bar ∈ bars ∧ ¬bar.date ≤ finish := by
  rw [beyond, List.mem_filter, Date.notAfter, Bool.not_eq_true', decide_eq_false_iff_not]

/-- Sorting and leaving out the bars after a day may be done in either order. -/
theorem sorted_upTo (finish : Date) (bars : List (Bar α)) :
    sorted (upTo finish bars) = upTo finish (sorted bars) :=
  sorted_filter_date (·.notAfter finish) bars

/-- Bars in order of date are those up to a day and then those beyond it. -/
theorem upTo_append_beyond {bars : List (Bar α)}
    (h : bars.Pairwise fun a b => a.date ≤ b.date) (finish : Date) :
    upTo finish bars ++ beyond finish bars = bars := by
  induction bars with
  | nil => rfl
  | cons bar rest ih =>
    by_cases hbar : bar.date ≤ finish
    · have hcons : upTo finish (bar :: rest) = bar :: upTo finish rest :=
        List.filter_cons_of_pos (decide_eq_true hbar)
      have hskip : beyond finish (bar :: rest) = beyond finish rest :=
        List.filter_cons_of_neg (by simpa [Date.notAfter] using hbar)
      rw [hcons, hskip, List.cons_append, ih h.of_cons]
    · -- No bar after this one is up to the day either.
      have hlater : ∀ b ∈ bar :: rest, ¬b.date ≤ finish := by
        refine List.forall_mem_cons.mpr ⟨hbar, fun b hb hle => hbar ?_⟩
        exact Date.le_trans (List.rel_of_pairwise_cons h hb) hle
      have hnone : upTo finish (bar :: rest) = [] :=
        List.eq_nil_iff_forall_not_mem.mpr fun b hb =>
          hlater b (mem_upTo.mp hb).1 (mem_upTo.mp hb).2
      have hall : beyond finish (bar :: rest) = bar :: rest :=
        List.filter_eq_self.mpr fun b hb => by simpa [Date.notAfter] using hlater b hb
      rw [hnone, hall, List.nil_append]

theorem upTo_between {start finish later : Date} (h : finish ≤ later) (bars : List (Bar α)) :
    upTo finish (between start later bars) = between start finish bars := by
  rw [upTo, between, between, List.filter_filter]
  refine List.filter_congr fun bar _ => ?_
  rw [Bool.eq_iff_iff, Bool.and_eq_true, Bool.and_eq_true, Bool.and_eq_true]
  constructor
  · rintro ⟨hfinish, hstart, -⟩
    exact ⟨hstart, hfinish⟩
  · rintro ⟨hstart, hfinish⟩
    exact ⟨hfinish, hstart, decide_eq_true (Date.le_trans (of_decide_eq_true hfinish) h)⟩

/-- **Bars up to a later day,** in order of date, are those up to an earlier day and then
bars of days after it. -/
theorem sorted_between {start finish later : Date} (h : finish ≤ later) (bars : List (Bar α)) :
    sorted (between start later bars) =
      sorted (between start finish bars) ++ beyond finish (sorted (between start later bars)) := by
  rw [← upTo_between h, sorted_upTo, upTo_append_beyond (pairwise_sorted _)]

/-! ### One bar for each day -/

theorem sublist_lastOfEachDay (bars : List (Bar α)) : (lastOfEachDay bars).Sublist bars := by
  induction bars with
  | nil => exact List.Sublist.refl _
  | cons bar rest ih =>
    rw [lastOfEachDay]
    split
    next => exact (List.nil_sublist rest).cons_cons bar
    next next more hsome =>
      rw [hsome] at ih
      split
      · exact ih.cons bar
      · exact ih.cons_cons bar

theorem mem_of_mem_lastOfEachDay {bar : Bar α} {bars : List (Bar α)}
    (h : bar ∈ lastOfEachDay bars) : bar ∈ bars :=
  (sublist_lastOfEachDay bars).subset h

/-- Bars of different days are kept apart from each other. -/
theorem lastOfEachDay_append {bars more : List (Bar α)}
    (h : ∀ bar ∈ bars, ∀ other ∈ more, bar.date ≠ other.date) :
    lastOfEachDay (bars ++ more) = lastOfEachDay bars ++ lastOfEachDay more := by
  induction bars with
  | nil => rfl
  | cons bar rest ih =>
    have hrest := ih fun b hb => h b (List.mem_cons_of_mem _ hb)
    rw [List.cons_append, lastOfEachDay, hrest, lastOfEachDay]
    -- Only where the two runs meet could a day be shared, and there it is not.
    rcases hfirst : lastOfEachDay rest with _ | ⟨next, others⟩
    · rcases hmore : lastOfEachDay more with _ | ⟨other, others⟩
      · rfl
      · have hother : other ∈ more := mem_of_mem_lastOfEachDay (hmore ▸ List.mem_cons_self)
        exact if_neg (h bar List.mem_cons_self other hother)
    · show (if bar.date = next.date then next :: (others ++ lastOfEachDay more)
          else bar :: next :: (others ++ lastOfEachDay more)) =
        (if bar.date = next.date then next :: others else bar :: next :: others) ++
          lastOfEachDay more
      split <;> rfl

theorem le_of_mem_sorted_between {start finish : Date} {bars : List (Bar α)} {bar : Bar α}
    (h : bar ∈ sorted (between start finish bars)) : bar.date ≤ finish := by
  have hmem := List.mem_filter.mp (List.mem_mergeSort.mp h)
  exact of_decide_eq_true (Bool.and_eq_true_iff.mp hmem.2).2

theorem le_of_mem_daily_between {start finish : Date} {bars : List (Bar α)} {bar : Bar α}
    (h : bar ∈ daily (between start finish bars)) : bar.date ≤ finish :=
  le_of_mem_sorted_between (mem_of_mem_lastOfEachDay h)

/-- **Bars up to a later day,** one for each day, are those up to an earlier day and then
others. -/
theorem daily_between {start finish later : Date} (h : finish ≤ later) (bars : List (Bar α)) :
    daily (between start finish bars) <+: daily (between start later bars) := by
  rw [daily, daily, sorted_between h, lastOfEachDay_append]
  · exact List.prefix_append _ _
  · intro bar hbar other hother hdate
    exact (mem_beyond.mp hother).2 (hdate ▸ le_of_mem_sorted_between hbar)

end Bar

end TradeSignals
