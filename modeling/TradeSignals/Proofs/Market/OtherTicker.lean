import TradeSignals.Proofs.Market.DailyBars
import TradeSignals.Proofs.Signals.Causal

/-!
# A series on another ticker

The bars of a ticker are prepared in two ways. A table puts them in order of date and keeps
the last one of each day. For a series on another ticker than that of the table they are put in
order of date and all are kept; only the numbers that come out are laid out by day, and there
the last one of a day counts. So the number of a day is what the series ends with over all bars
up to the day, in the one case over one bar for each day
(`TradeSignals.SeriesSource.getElem?_ofBars_own`) and in the other over all of them
(`TradeSignals.SeriesSource.getElem?_ofBars_other`).

Up to the first day that is repeated these are the same bars, and a price is that of the last
bar in any case. But what has a history differs from there on
(`TradeSignals.SeriesSource.ofBars_repeatedDay`), although both are the numbers of the same
series over the same bars.
-/

namespace TradeSignals

open Quantity

namespace Bar

variable {α : Type}

/-! ### The last bar of all -/

/-- The last bar of all is kept. -/
theorem getLast?_lastOfEachDay (bars : List (Bar α)) :
    (lastOfEachDay bars).getLast? = bars.getLast? := by
  induction bars with
  | nil => rfl
  | cons bar rest ih =>
    rw [lastOfEachDay]
    split
    next hnone =>
      rw [hnone, List.getLast?_nil] at ih
      rw [List.getLast?_eq_none_iff.1 ih.symm]
    next next more hsome =>
      have hrest : rest ≠ [] := by
        rintro rfl
        cases hsome
      rw [List.getLast?_cons_of_ne_nil hrest, ← ih, hsome]
      split
      · rfl
      · exact List.getLast?_cons_of_ne_nil (List.cons_ne_nil next more)

/-! ### The bars up to a day -/

variable {day : Date} {bars : List (Bar α)}

/-- Bars with one for each day are those up to a day and others. -/
theorem daily_eq_append (day : Date) (bars : List (Bar α)) :
    daily bars = daily (upTo day bars) ++ lastOfEachDay (beyond day (sorted bars)) := by
  rw [daily, daily, sorted_upTo, ← lastOfEachDay_append, upTo_append_beyond (pairwise_sorted bars)]
  intro bar hbar other hother hdate
  exact (mem_beyond.1 hother).2 (hdate ▸ (mem_upTo.1 hbar).2)

/-- The bars in order of date up to a day that has a bar end with one of this day. -/
theorem exists_sorted_upTo_eq (h : day ∈ bars.map Bar.date) :
    ∃ before last, sorted (upTo day bars) = before ++ [last] ∧ last.date = day := by
  obtain ⟨bar, hbar, rfl⟩ := List.mem_map.1 h
  have hmem : bar ∈ sorted (upTo bar.date bars) :=
    List.mem_mergeSort.2 (mem_upTo.2 ⟨hbar, Int.le_refl _⟩)
  rcases List.eq_nil_or_concat (sorted (upTo bar.date bars)) with hnil | ⟨before, last, hlast⟩
  · rw [hnil] at hmem
    cases hmem
  · rw [List.concat_eq_append] at hlast
    refine ⟨before, last, hlast, Date.le_antisymm ?_ ?_⟩
    · have hlast' : last ∈ sorted (upTo bar.date bars) := by
        rw [hlast]
        exact List.mem_concat_self
      exact (mem_upTo.1 (List.mem_mergeSort.1 hlast')).2
    · have hsorted := pairwise_sorted (upTo bar.date bars)
      rw [hlast] at hmem hsorted
      rcases List.mem_append.1 hmem with hbefore | hsame
      · exact (List.pairwise_append.1 hsorted).2.2 bar hbefore last (List.mem_singleton_self last)
      · rw [List.mem_singleton.1 hsame]
        exact Int.le_refl _

/-- So do those with one bar for each day. -/
theorem exists_daily_upTo_eq (h : day ∈ bars.map Bar.date) :
    ∃ before last, daily (upTo day bars) = before ++ [last] ∧ last.date = day := by
  obtain ⟨before, last, hsorted, hdate⟩ := exists_sorted_upTo_eq h
  have hlast : (daily (upTo day bars)).getLast? = some last := by
    rw [daily, getLast?_lastOfEachDay, hsorted, List.getLast?_concat]
  obtain ⟨kept, hkept⟩ := List.getLast?_eq_some_iff.1 hlast
  exact ⟨kept, last, hkept, hdate⟩

/-- The last bar is the same, whether one is kept for each day or all are. -/
theorem getLast?_daily (bars : List (Bar α)) : (daily bars).getLast? = (sorted bars).getLast? :=
  getLast?_lastOfEachDay _

end Bar

/-! ### Numbers of a day -/

/-- What a causal study gives for the last of some things, when others come after them. -/
theorem Causal.getElem?_append {β γ : Type} {f : List β → List γ} (hf : Causal f)
    (before : List β) (last : β) (more : List β) :
    (f (before ++ [last] ++ more))[before.length]? = (f (before ++ [last])).getLast? := by
  obtain ⟨others, hothers⟩ := hf.mono (List.prefix_append (before ++ [last]) more)
  have hlength : (f (before ++ [last])).length = before.length + 1 := by
    rw [hf.length_eq, List.length_append, List.length_singleton]
  rw [← hothers, List.getElem?_append_left (by omega), List.getLast?_eq_getElem?, hlength,
    Nat.add_sub_cancel]

namespace SeriesSource

/-- Of numbers that belong to bars, that of the last bar of a day. -/
def numberOn (bars : List (Bar Float)) (values : List Float) (day : Date) : Float :=
  (((bars.zip values).reverse.find? fun b => b.1.date = day).map (·.2)).getD missing

variable {day : Date}

/-- A day without a bar has no number. -/
theorem numberOn_of_not_mem {bars : List (Bar Float)} (values : List Float)
    (h : day ∉ bars.map Bar.date) : numberOn bars values day = missing := by
  have hnone : (bars.zip values).reverse.find? (fun b => b.1.date = day) = none := by
    refine List.find?_eq_none.2 fun b hb => ?_
    rw [decide_eq_true_iff]
    rintro rfl
    exact h (List.mem_map_of_mem (List.of_mem_zip (List.mem_reverse.1 hb)).1)
  rw [numberOn, hnone]
  rfl

/-- The number of the day of the last bar is the last number. -/
theorem numberOn_concat {before : List (Bar Float)} {last : Bar Float} {values : List Float}
    (hlength : values.length = before.length + 1) :
    some (numberOn (before ++ [last]) values last.date) = values.getLast? := by
  rcases List.eq_nil_or_concat values with rfl | ⟨firsts, value, rfl⟩
  · cases hlength
  · rw [List.concat_eq_append, List.length_append, List.length_singleton] at hlength
    -- From the end, the bar itself is the first one of its day.
    have hfind : ((last, value) :: (before.zip firsts).reverse).find?
        (fun b => b.1.date = last.date) = some (last, value) :=
      List.find?_cons_of_pos (decide_eq_true rfl)
    rw [List.concat_eq_append, numberOn, List.zip_append (by omega), List.reverse_append,
      List.getLast?_concat, List.zip_cons_cons, List.zip_nil_left, List.reverse_singleton,
      List.singleton_append, hfind]
    rfl

/-- Bars of other days change nothing. -/
theorem numberOn_append {bars more : List (Bar Float)} {values others : List Float}
    (hlength : values.length = bars.length) (h : ∀ bar ∈ more, bar.date ≠ day) :
    numberOn (bars ++ more) (values ++ others) day = numberOn bars values day := by
  have halign : align (bars ++ more) (values ++ others) [day] = align bars values [day] :=
    align_append hlength fun _ hday bar hbar => List.mem_singleton.1 hday ▸ h bar hbar
  exact (List.cons_eq_cons.1 halign).1

/-! ### The number of a day, prepared in the two ways -/

section Days

variable {bars : List (Bar Float)}

/-- Over bars with one for each day, the number of a day is what the series ends with over
those up to the day. -/
theorem getElem?_over_daily (s : Series) {j : ℕ}
    (hday : ((Bar.daily bars).map Bar.date)[j]? = some day) :
    (s.over (Bar.daily bars))[j]? = (s.over (Bar.daily (Bar.upTo day bars))).getLast? := by
  have hmem : day ∈ bars.map Bar.date := Bar.mem_dates_daily.1 (List.mem_of_getElem? hday)
  obtain ⟨before, last, hlast, hdate⟩ := Bar.exists_daily_upTo_eq hmem
  have hdaily := Bar.daily_eq_append day bars
  rw [hlast] at hdaily
  -- The day is found at one place only, and that is the last of the bars up to it.
  have hplace : ((Bar.daily bars).map Bar.date)[before.length]? = some day := by
    rw [hdaily, List.getElem?_map, List.append_assoc, List.getElem?_append_right (Nat.le_refl _),
      Nat.sub_self]
    exact congrArg some hdate
  have hnodup : ((Bar.daily bars).map Bar.date).Nodup :=
    Bar.nodup_dates_lastOfEachDay (Bar.pairwise_sorted bars)
  have hj : j = before.length :=
    (List.getElem?_inj (List.getElem?_eq_some_iff.1 hday).1 hnodup).1 (hday.trans hplace.symm)
  rw [hj, hlast, hdaily]
  exact s.causal_over.getElem?_append before last _

/-- Over all bars, the number of the last bar of a day is what the series ends with over those
up to the day. -/
theorem numberOn_over_sorted (s : Series) (hday : day ∈ bars.map Bar.date) :
    some (numberOn (Bar.sorted bars) (s.over (Bar.sorted bars)) day) =
      (s.over (Bar.sorted (Bar.upTo day bars))).getLast? := by
  obtain ⟨before, last, hlast, hdate⟩ := Bar.exists_sorted_upTo_eq hday
  have hsorted := Bar.upTo_append_beyond (Bar.pairwise_sorted bars) day
  rw [← Bar.sorted_upTo, hlast] at hsorted
  obtain ⟨more, hmore⟩ := s.causal_over.mono (List.prefix_append (before ++ [last])
    (Bar.beyond day (Bar.sorted bars)))
  have hlength := s.causal_over.length_eq (before ++ [last])
  rw [hlast, ← hsorted, ← hmore, numberOn_append hlength, ← hdate, numberOn_concat]
  · rw [hlength, List.length_append, List.length_singleton]
  · rintro bar hbar rfl
    exact (Bar.mem_beyond.1 hbar).2 (Int.le_refl _)

/-- No day is repeated, or the series looks at no bar but the last: it is a price. -/
def Unrepeated (s : Series) (bars : List (Bar Float)) : Prop :=
  (bars.map Bar.date).Nodup ∨ ∃ ticker field, s = .price ticker field

theorem Unrepeated.upTo {s : Series} (h : Unrepeated s bars) (day : Date) :
    Unrepeated s (Bar.upTo day bars) :=
  h.imp_left fun hnodup => hnodup.sublist (List.filter_sublist.map Bar.date)

/-- Then it does not matter how the bars were prepared. -/
theorem Unrepeated.getLast?_over_eq {s : Series} (h : Unrepeated s bars) :
    (s.over (Bar.sorted bars)).getLast? = (s.over (Bar.daily bars)).getLast? := by
  rcases h with hnodup | ⟨ticker, field, rfl⟩
  · rw [Bar.daily_of_nodup hnodup]
  · rw [Series.over, Series.over, List.getLast?_map, List.getLast?_map, Bar.getLast?_daily]

end Days

/-! ### The two tables -/

section Tables

variable {s : Series} {ticker : String} {t : BarTable} {i : ℕ}

/-- A series on the ticker of the table. -/
theorem ofBars_own (others : TickerBars) (hs : s.ticker? = some ticker)
    (bars : List (Bar Float)) :
    Id.run (ofBars others s (.ofBars ticker bars)) = s.over (Bar.daily bars) := by
  rw [ofBars, hs, Option.filter_some, if_neg]
  · rfl
  · rw [decide_eq_true_iff]
    exact fun h => h rfl

/-- A series on another ticker. -/
theorem ofBars_other (others : TickerBars) (hs : s.ticker? = some ticker)
    (ht : t.ticker ≠ ticker) (bars : List (Bar Float)) :
    Id.run (ofBars (register others ticker bars) s t) =
      t.dates.map (numberOn (Bar.sorted bars) (s.over (Bar.sorted bars))) := by
  have hget : (register others ticker bars).get? ticker = some (Bar.sorted bars) := by
    rw [register, Dictionary.get?_put, if_pos rfl]
  rw [ofBars, hs, Option.filter_some, if_pos (decide_eq_true ht.symm)]
  dsimp only
  rw [hget]
  rfl

/-- **The number of a day on the ticker's own table** is what the series ends with over the
bars up to the day, one for each day. -/
theorem getElem?_ofBars_own (others : TickerBars) (hs : s.ticker? = some ticker)
    {bars : List (Bar Float)} (hday : (BarTable.ofBars ticker bars).dates[i]? = some day) :
    (Id.run (ofBars others s (.ofBars ticker bars)))[i]? =
      (s.over (Bar.daily (Bar.upTo day bars))).getLast? := by
  rw [ofBars_own others hs]
  exact getElem?_over_daily s hday

/-- **The number of a day on another table** is what the series ends with over all bars up to
the day. -/
theorem getElem?_ofBars_other (others : TickerBars) (hs : s.ticker? = some ticker)
    (ht : t.ticker ≠ ticker) {bars : List (Bar Float)} (hi : t.dates[i]? = some day)
    (hday : day ∈ bars.map Bar.date) :
    (Id.run (ofBars (register others ticker bars) s t))[i]? =
      (s.over (Bar.sorted (Bar.upTo day bars))).getLast? := by
  rw [ofBars_other others hs ht, List.getElem?_map, hi, ← numberOn_over_sorted s hday]
  rfl

/-- On a day on which the ticker has no bar it has no number. -/
theorem getElem?_ofBars_gap (others : TickerBars) (hs : s.ticker? = some ticker)
    (ht : t.ticker ≠ ticker) {bars : List (Bar Float)} (hi : t.dates[i]? = some day)
    (hday : day ∉ bars.map Bar.date) :
    (Id.run (ofBars (register others ticker bars) s t))[i]? = some missing := by
  have hperm := (List.mergeSort_perm bars Bar.notAfter).map Bar.date
  have hnot : day ∉ (Bar.sorted bars).map Bar.date := mt hperm.mem_iff.1 hday
  rw [ofBars_other others hs ht, List.getElem?_map, hi, Option.map_some,
    numberOn_of_not_mem _ hnot]

/-- **A series on another ticker.** On the days of another table it has these numbers: a
missing one where the ticker has no bar, and else what the series ends with over all bars up to
the day. On the table of the ticker itself it has what it ends with over the bars up to the day
with one for each day. The two are the same if no day up to that one is repeated, and in any
case for prices. -/
theorem ofBars_otherTicker (others : TickerBars) (hs : s.ticker? = some ticker)
    (ht : t.ticker ≠ ticker) (bars : List (Bar Float)) :
    let home := BarTable.ofBars ticker bars
    let own := Id.run (ofBars others s home)
    let other := Id.run (ofBars (register others ticker bars) s t)
    own.length = home.size ∧ other.length = t.size ∧
      (∀ (i : ℕ) (day : Date), t.dates[i]? = some day →
        (day ∉ home.dates → other[i]? = some (missing : Float)) ∧
        ∀ j : ℕ, home.dates[j]? = some day →
          own[j]? = (s.over (Bar.daily (Bar.upTo day bars))).getLast? ∧
          other[i]? = (s.over (Bar.sorted (Bar.upTo day bars))).getLast? ∧
          (Unrepeated s (Bar.upTo day bars) → other[i]? = own[j]?)) ∧
      (t.dates = home.dates → Unrepeated s bars → other = own) := by
  intro home own other
  have hlength : own.length = home.size :=
    (congrArg List.length (ofBars_own others hs bars)).trans (s.causal_over.length_eq _)
  have hlength' : other.length = t.dates.length :=
    (congrArg List.length (ofBars_other others hs ht bars)).trans (List.length_map _)
  have hdays : ∀ {i j : ℕ} {day : Date},
      t.dates[i]? = some day → home.dates[j]? = some day →
      own[j]? = (s.over (Bar.daily (Bar.upTo day bars))).getLast? ∧
        other[i]? = (s.over (Bar.sorted (Bar.upTo day bars))).getLast? := fun hi hj =>
    ⟨getElem?_ofBars_own others hs hj, getElem?_ofBars_other others hs ht hi
      (Bar.mem_dates_daily.1 (List.mem_of_getElem? hj))⟩
  refine ⟨hlength, hlength'.trans (List.length_map _),
    fun i day hi => ⟨fun hnot => ?_, fun j hj => ?_⟩, fun hdates h => ?_⟩
  · exact getElem?_ofBars_gap others hs ht hi (mt Bar.mem_dates_daily.2 hnot)
  · obtain ⟨hown, hother⟩ := hdays hi hj
    refine ⟨hown, hother, fun h => ?_⟩
    rw [hown, hother, h.getLast?_over_eq]
  · have hsize : home.size = t.dates.length := by
      rw [hdates]
      exact (List.length_map _).symm
    refine List.ext_getElem?' fun i hi => ?_
    rw [hlength, hlength', hsize, Nat.max_self] at hi
    have hi' : t.dates[i]? = some t.dates[i] := List.getElem?_eq_getElem hi
    obtain ⟨hown, hother⟩ := hdays hi' ((congrArg (·[i]?) hdates).symm.trans hi')
    rw [hown, hother, (h.upTo _).getLast?_over_eq]

end Tables

/-- Bars of two days, the second of which is repeated. -/
def repeatedDay : List (Bar Float) :=
  [⟨⟨2024, 1, 1, .refl true⟩, 1, 1, 1, 1, 1⟩, ⟨⟨2024, 1, 2, .refl true⟩, 10, 10, 10, 10, 1⟩,
    ⟨⟨2024, 1, 2, .refl true⟩, 3, 3, 3, 3, 1⟩]

/-- Bars of the same two days. -/
def sameDays : List (Bar Float) :=
  [⟨⟨2024, 1, 1, .refl true⟩, 7, 8, 6, 7, 1000⟩, ⟨⟨2024, 1, 2, .refl true⟩, 8, 9, 7, 8, 1000⟩]

theorem sorted_repeatedDay : Bar.sorted repeatedDay = repeatedDay :=
  List.mergeSort_of_pairwise (by decide)

theorem sorted_sameDays : Bar.sorted sameDays = sameDays :=
  List.mergeSort_of_pairwise (by decide)

theorem dates_repeatedDay :
    (BarTable.ofBars "U" sameDays).dates = (BarTable.ofBars "T" repeatedDay).dates := by
  rw [BarTable.ofBars, BarTable.ofBars, Bar.daily, Bar.daily, sorted_repeatedDay, sorted_sameDays]
  decide

/-- A price is the same on both tables, also for the day that is repeated. -/
theorem ofBars_otherTicker_price :
    let t := BarTable.ofBars "U" sameDays
    let home := BarTable.ofBars "T" repeatedDay
    (Series.price "T" .close).ticker? = some "T" ∧ t.ticker ≠ "T" ∧
      Id.run (ofBars (register .empty "T" repeatedDay) (.price "T" .close) t) =
        Id.run (ofBars .empty (.price "T" .close) home) := by
  intro t home
  have hs : (Series.price "T" .close).ticker? = some "T" := rfl
  have ht : t.ticker ≠ "T" := by decide
  obtain ⟨-, -, -, hsame⟩ := ofBars_otherTicker .empty hs ht repeatedDay
  exact ⟨hs, ht, hsame dates_repeatedDay (.inr ⟨"T", .close, rfl⟩)⟩

/-- **A repeated day makes a difference.** The table has the days of the other ticker, but the
average of two days is taken over two bars of the same day there, and over the last bars of two
days on the ticker's own table. -/
theorem ofBars_repeatedDay :
    let t := BarTable.ofBars "U" sameDays
    let home := BarTable.ofBars "T" repeatedDay
    let own := Id.run (ofBars .empty (.windowed .sma "T" 2) home)
    let other := Id.run (ofBars (register .empty "T" repeatedDay) (.windowed .sma "T" 2) t)
    t.ticker ≠ "T" ∧ t.dates = home.dates ∧ own[1]? = some 2 ∧ other[1]? = some 6.5 ∧
      other ≠ own := by
  intro t home own other
  have ht : t.ticker ≠ "T" := by decide
  have hown : own[1]? = some 2 := by
    change (Id.run (ofBars .empty (.windowed .sma "T" 2) (.ofBars "T" repeatedDay)))[1]? = _
    rw [ofBars_own .empty rfl, Bar.daily, sorted_repeatedDay]
    decide +kernel
  have hother : other[1]? = some 6.5 := by
    change (Id.run (ofBars (register .empty "T" repeatedDay) (.windowed .sma "T" 2) t))[1]? = _
    rw [ofBars_other .empty rfl ht, dates_repeatedDay, BarTable.ofBars, Bar.daily,
      sorted_repeatedDay]
    decide +kernel
  refine ⟨ht, dates_repeatedDay, hown, hother, fun hsame => ?_⟩
  rw [hsame, hown] at hother
  exact absurd hother (by decide +kernel)

end SeriesSource

end TradeSignals
