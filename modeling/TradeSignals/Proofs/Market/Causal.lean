import Mathlib.Data.Nat.Notation
import Mathlib.Tactic.Common
import TradeSignals.Signals.SeriesSource

/-!
# The numbers of a series do not look ahead

A study gives one number for each bar, and the number of a bar depends only on the bars
up to it: over more bars the study gives the same numbers first
(`TradeSignals.Causal`). This is not plain from the definitions. Most studies have an
early way out for runs that are too short, and how long the gap in front of the numbers
is may itself depend on the numbers, as for the exponential average, which begins after
the leading gap of what it is applied to.

All studies are causal for one of three reasons: they look at each bar alone, or at a
window that ends with it; they begin after a fixed gap and go on as a recurrence
(`TradeSignals.Causal.of_gap`); or they are made of causal studies. What is proved in the
end is one statement about every series (`TradeSignals.Series.causal_over`).
-/

namespace TradeSignals

open Quantity

variable {α β γ δ : Type}

/-- **A causal study:** one number for each thing, and over more things the same numbers
first. -/
structure Causal (f : List β → List γ) : Prop where
  /-- There are as many numbers as things. -/
  length_eq : ∀ xs, (f xs).length = xs.length
  /-- What comes later changes nothing. -/
  mono : ∀ {xs ys}, xs <+: ys → f xs <+: f ys

/-! ### Prefixes -/

/-- Two prefixes, zipped, are a prefix of what they are prefixes of, zipped. -/
theorem prefix_zipWith (op : β → γ → δ) {xs xs' : List β} {ys ys' : List γ} (hx : xs <+: xs')
    (hy : ys <+: ys') : List.zipWith op xs ys <+: List.zipWith op xs' ys' := by
  -- The shorter of the two columns decides, in the prefixes as in the whole.
  induction xs generalizing xs' ys ys' with
  | nil => exact List.nil_prefix
  | cons x xs ih =>
    rcases ys with _ | ⟨y, ys⟩
    · rw [List.zipWith_nil_right]
      exact List.nil_prefix
    · rcases hx with ⟨zs, rfl⟩
      rcases hy with ⟨ws, rfl⟩
      rw [List.cons_append, List.cons_append, List.zipWith_cons_cons, List.zipWith_cons_cons,
        List.prefix_cons_inj]
      exact ih (List.prefix_append xs zs) (List.prefix_append ys ws)

theorem take_of_prefix_le {xs ys : List β} {n : ℕ} (h : xs <+: ys) (hn : n ≤ xs.length) :
    ys.take n = xs.take n := by
  obtain ⟨zs, rfl⟩ := h
  exact List.take_append_of_le_length hn

theorem prefix_drop {xs ys : List β} (h : xs <+: ys) (n : ℕ) : xs.drop n <+: ys.drop n := by
  obtain ⟨zs, rfl⟩ := h
  rw [List.drop_append]
  exact List.prefix_append _ _

/-- A column of one filler is a prefix of a longer one. -/
theorem replicate_prefix_append {m n : ℕ} (h : m ≤ n) (filler : β) (xs : List β) :
    List.replicate m filler <+: List.replicate n filler ++ xs := by
  rw [← Nat.add_sub_cancel' h, ← List.replicate_append_replicate, List.append_assoc]
  exact List.prefix_append _ _

namespace Causal

/-! ### Studies made of studies -/

theorem map (f : β → γ) : Causal (List.map f) :=
  ⟨fun _ => List.length_map f, fun h => h.map f⟩

theorem comp {f : List β → List γ} {g : List γ → List δ} (hg : Causal g) (hf : Causal f) :
    Causal fun xs => g (f xs) :=
  ⟨fun xs => (hg.length_eq _).trans (hf.length_eq xs), fun h => hg.mono (hf.mono h)⟩

theorem zipWith {f : List β → List γ} {g : List β → List δ} (op : γ → δ → α)
    (hf : Causal f) (hg : Causal g) : Causal fun xs => List.zipWith op (f xs) (g xs) where
  length_eq xs := by
    rw [List.length_zipWith, hf.length_eq, hg.length_eq, Nat.min_self]
  mono h := prefix_zipWith op (hf.mono h) (hg.mono h)

/-- A filler alone. -/
theorem replicate (filler : γ) : Causal fun xs : List β => List.replicate xs.length filler where
  length_eq xs := List.length_replicate
  mono {xs ys} h := by
    have hprefix := replicate_prefix_append h.length_le filler []
    rwa [List.append_nil] at hprefix

/-- **A study after a fixed gap:** runs that end within the gap have only the filler, and
what follows the gap for longer ones is not changed by what comes later. -/
theorem of_gap {f : List β → List γ} (filler : γ) (gap : ℕ) (body : List β → List γ)
    (hshort : ∀ xs, xs.length ≤ gap → f xs = List.replicate xs.length filler)
    (hlong : ∀ xs, gap < xs.length → f xs = List.replicate gap filler ++ body xs)
    (hlength : ∀ xs, gap < xs.length → (body xs).length + gap = xs.length)
    (hmono : ∀ {xs ys}, gap < xs.length → xs <+: ys → body xs <+: body ys) : Causal f where
  length_eq xs := by
    rcases Nat.lt_or_ge gap xs.length with h | h
    · rw [hlong xs h, List.length_append, ← hlength xs h, Nat.add_comm]
      exact congrArg _ List.length_replicate
    · rw [hshort xs h]
      exact List.length_replicate
  mono {xs ys} h := by
    rcases Nat.lt_or_ge gap xs.length with hx | hx
    · rw [hlong xs hx, hlong ys (Nat.lt_of_lt_of_le hx h.length_le)]
      exact (List.prefix_append_right_inj _).mpr (hmono hx h)
    · rw [hshort xs hx]
      rcases Nat.lt_or_ge gap ys.length with hy | hy
      · rw [hlong ys hy]
        exact replicate_prefix_append hx filler _
      · rw [hshort ys hy]
        exact (replicate filler).mono h

end Causal

namespace Indicator

variable [Quantity α]

/-! ### Windows and recurrences -/

theorem length_windows {length : ℕ} {xs : List β} :
    (windows length xs).length = xs.length + 1 - length := by
  rw [windows, List.length_map, List.length_range]

/-- The windows of a run are the first windows of a longer one. -/
theorem windows_mono {length : ℕ} {xs ys : List β} (hlength : length ≤ xs.length)
    (h : xs <+: ys) : windows length xs <+: windows length ys := by
  obtain ⟨zs, rfl⟩ := h
  -- The longer run has as many windows more as it has things more.
  have hcount : (xs ++ zs).length + 1 - length = (xs.length + 1 - length) + zs.length := by
    rw [List.length_append]
    omega
  have hsame : ∀ i ∈ List.range (xs.length + 1 - length),
      ((xs ++ zs).drop i).take length = (xs.drop i).take length := by
    intro i hi
    rw [List.mem_range] at hi
    have hdrop : i ≤ xs.length := by omega
    have htake : length ≤ (xs.drop i).length := by
      rw [List.length_drop]
      omega
    rw [List.drop_append_of_le_length hdrop, List.take_append_of_le_length htake]
  rw [windows, windows, hcount, List.range_add, List.map_append, List.map_congr_left hsame]
  exact List.prefix_append _ _

theorem causal_overWindows (length : ℕ) (value : List β → α) :
    Causal (overWindows length value) := by
  rcases Nat.eq_zero_or_pos length with rfl | hpos
  · exact Causal.replicate missing
  · refine Causal.of_gap missing (length - 1) (fun xs => (windows length xs).map value)
      (fun xs hxs => if_pos (.inr (by omega))) (fun xs hxs => if_neg (by omega)) ?_ ?_
    · intro xs hxs
      rw [List.length_map, length_windows]
      omega
    · intro xs ys hxs h
      exact (windows_mono (by omega) h).map value

omit [Quantity α] in
theorem length_recurrence (step : α → β → α) (first : α) (xs : List β) :
    (recurrence step first xs).length = xs.length + 1 := by
  induction xs generalizing first with
  | nil => rfl
  | cons x rest ih => exact congrArg (· + 1) (ih _)

omit [Quantity α] in
theorem recurrence_mono (step : α → β → α) (first : α) {xs ys : List β} (h : xs <+: ys) :
    recurrence step first xs <+: recurrence step first ys := by
  induction xs generalizing first ys with
  | nil =>
    rcases ys with _ | ⟨y, ys⟩
    · exact List.prefix_refl _
    · exact List.prefix_append [first] _
  | cons x rest ih =>
    rcases h with ⟨zs, rfl⟩
    exact (List.prefix_cons_inj first).mpr (ih _ (List.prefix_append rest zs))

/-! ### Averages -/

theorem length_slide (w : Rolling α) {entering leaving : List α}
    (h : entering.length ≤ leaving.length) :
    (slide w entering leaving).length = entering.length := by
  induction entering generalizing w leaving with
  | nil => rfl
  | cons x entering ih =>
    rcases leaving with _ | ⟨old, leaving⟩
    · exact absurd h (Nat.not_succ_le_zero _)
    · exact congrArg (· + 1) (ih _ (Nat.le_of_succ_le_succ h))

theorem slide_mono (w : Rolling α) {entering entering' leaving leaving' : List α}
    (h : entering <+: entering') (h' : leaving <+: leaving') :
    slide w entering leaving <+: slide w entering' leaving' := by
  induction entering generalizing w entering' leaving leaving' with
  | nil => exact List.nil_prefix
  | cons x entering ih =>
    rcases leaving with _ | ⟨old, leaving⟩
    · exact List.nil_prefix
    · rcases h with ⟨xs, rfl⟩
      rcases h' with ⟨ys, rfl⟩
      exact (List.prefix_cons_inj _).mpr
        (ih _ (List.prefix_append entering xs) (List.prefix_append leaving ys))

theorem causal_sma (length : ℕ) : Causal (sma (α := α) length) := by
  rcases Nat.eq_zero_or_pos length with rfl | hpos
  · exact Causal.replicate missing
  · -- The first window is summed up, and from there on one number enters and one leaves.
    let first (xs : List α) : Rolling α := (xs.take length).foldl Rolling.enter ⟨ofInt 0, 0⟩
    refine Causal.of_gap missing (length - 1)
      (fun xs => (first xs :: slide (first xs) (xs.drop length) xs).map (Rolling.mean length))
      (fun xs hxs => if_pos (.inr (by omega))) (fun xs hxs => if_neg (by omega)) ?_ ?_
    · intro xs hxs
      have hdrop : (xs.drop length).length = xs.length - length := List.length_drop
      rw [List.length_map, List.length_cons, length_slide _ (by omega), hdrop]
      omega
    · intro xs ys hxs h
      have hfirst : first ys = first xs :=
        congrArg (List.foldl Rolling.enter ⟨ofInt 0, 0⟩) (take_of_prefix_le h (by omega))
      rw [hfirst]
      exact ((List.prefix_cons_inj _).mpr (slide_mono _ (prefix_drop h length) h)).map _

/-- The gap in front of a run is that of a longer one, unless it is the whole run. -/
theorem leadingGaps_cases {xs ys : List α} (h : xs <+: ys) :
    leadingGaps ys = leadingGaps xs ∨
      leadingGaps xs = xs.length ∧ xs.length ≤ leadingGaps ys := by
  obtain ⟨zs, rfl⟩ := h
  rw [leadingGaps, leadingGaps, List.takeWhile_append]
  -- Either the run ends in its gap, or the gap ends in the run.
  split
  next hall => exact .inr ⟨hall, by rw [List.length_append]; exact Nat.le_add_right _ _⟩
  next => exact .inl rfl

theorem leadingGaps_le (xs : List α) : leadingGaps xs ≤ xs.length :=
  (List.takeWhile_sublist _).length_le

/-- A study of what follows the gap in front of a run. -/
theorem causal_afterGap {f : List α → List α} (hf : Causal f) :
    Causal fun xs => gaps (leadingGaps xs) ++ f (xs.drop (leadingGaps xs)) where
  length_eq xs := by
    have hle := leadingGaps_le xs
    rw [List.length_append, hf.length_eq, List.length_drop, gaps, List.length_replicate]
    omega
  mono {xs ys} h := by
    rcases leadingGaps_cases h with heq | ⟨hall, hle⟩
    · rw [heq]
      exact (List.prefix_append_right_inj _).mpr (hf.mono (prefix_drop h _))
    · -- Nothing follows the gap of the shorter run.
      have hnil : f [] = [] := List.eq_nil_of_length_eq_zero (hf.length_eq [])
      rw [hall, List.drop_length, hnil, List.append_nil]
      exact replicate_prefix_append hle missing _

/-- The exponential average of a run with nothing missing in front. -/
def emaFrom (length : ℕ) (xs : List α) : List α :=
  if length = 0 ∨ xs.length < length then gaps xs.length
  else
    gaps (length - 1) ++
      recurrence (fun average x => x * emaWeight length + average * (ofInt 1 - emaWeight length))
        (sum (xs.take length) / ofNat length) (xs.drop length)

theorem causal_emaFrom (length : ℕ) : Causal (emaFrom (α := α) length) := by
  rcases Nat.eq_zero_or_pos length with rfl | hpos
  · exact Causal.replicate missing
  · refine Causal.of_gap missing (length - 1) _ (fun xs hxs => if_pos (.inr (by omega)))
      (fun xs hxs => if_neg (by omega)) ?_ ?_
    · intro xs hxs
      rw [length_recurrence, List.length_drop]
      omega
    · intro xs ys hxs h
      rw [take_of_prefix_le h (by omega)]
      exact recurrence_mono _ _ (prefix_drop h length)

theorem ema_eq (length : ℕ) (xs : List α) :
    ema length xs = gaps (leadingGaps xs) ++ emaFrom length (xs.drop (leadingGaps xs)) := by
  have hle := leadingGaps_le xs
  rw [ema, emaFrom, List.length_drop]
  by_cases h : length = 0 ∨ xs.length < leadingGaps xs + length
  · rw [if_pos h, if_pos (by omega), gaps, gaps, gaps, List.replicate_append_replicate,
      Nat.add_sub_cancel' hle]
  · rw [if_neg h, if_neg (by omega), ← List.append_assoc, gaps, gaps, gaps,
      List.replicate_append_replicate, Nat.add_sub_assoc (by omega)]

theorem causal_ema (length : ℕ) : Causal (ema (α := α) length) := by
  rw [funext (ema_eq length)]
  exact causal_afterGap (causal_emaFrom length)

/-! ### Change -/

theorem changes_mono {xs ys : List α} (h : xs <+: ys) : changes xs <+: changes ys := by
  rw [changes, changes, ← List.drop_one, ← List.drop_one]
  exact prefix_zipWith _ (prefix_drop h 1) h

theorem length_changes (xs : List α) : (changes xs).length = xs.length - 1 := by
  rw [changes, List.length_zipWith, List.length_tail]
  exact Nat.min_eq_left (Nat.sub_le _ _)

theorem length_smoothed (length : ℕ) (xs : List α) :
    (smoothed length xs).length = xs.length - length + 1 := by
  rw [smoothed, length_recurrence, List.length_drop]

theorem smoothed_mono {length : ℕ} {xs ys : List α} (hlength : length ≤ xs.length)
    (h : xs <+: ys) : smoothed length xs <+: smoothed length ys := by
  rw [smoothed, smoothed, take_of_prefix_le h hlength]
  exact recurrence_mono _ _ (prefix_drop h length)

theorem causal_rsi (length : ℕ) : Causal (rsi (α := α) length) := by
  rcases Nat.eq_zero_or_pos length with rfl | hpos
  · exact Causal.replicate missing
  · refine Causal.of_gap missing length
      (fun xs => List.zipWith strength (smoothed length ((changes xs).map gain))
        (smoothed length ((changes xs).map loss)))
      (fun xs hxs => if_pos (.inr hxs)) (fun xs hxs => if_neg (by omega)) ?_ ?_
    · intro xs hxs
      rw [List.length_zipWith, length_smoothed, length_smoothed, List.length_map, List.length_map,
        length_changes]
      omega
    · intro xs ys hxs h
      have hgain : length ≤ ((changes xs).map gain).length := by
        rw [List.length_map, length_changes]
        omega
      have hloss : length ≤ ((changes xs).map loss).length := by
        rw [List.length_map, length_changes]
        omega
      exact prefix_zipWith _ (smoothed_mono hgain ((changes_mono h).map gain))
        (smoothed_mono hloss ((changes_mono h).map loss))

theorem causal_roc (length : ℕ) : Causal (roc (α := α) length) := by
  rcases Nat.eq_zero_or_pos length with rfl | hpos
  · exact Causal.replicate missing
  · refine Causal.of_gap missing length
      (fun xs => List.zipWith percentChange (xs.drop length) xs)
      (fun xs hxs => if_pos (.inr hxs)) (fun xs hxs => if_neg (by omega)) ?_ ?_
    · intro xs hxs
      rw [List.length_zipWith, List.length_drop]
      omega
    · intro xs ys _ h
      exact prefix_zipWith _ (prefix_drop h length) h

/-! ### The distance of two averages -/

theorem causal_macdLine (fast slow : ℕ) : Causal (macdLine (α := α) fast slow) :=
  (causal_ema fast).zipWith (· - ·) (causal_ema slow)

theorem causal_macdSignal (fast slow signal : ℕ) :
    Causal (macdSignal (α := α) fast slow signal) :=
  (causal_ema signal).comp (causal_macdLine fast slow)

/-! ### Studies of whole bars -/

theorem causal_trueRanges : Causal (trueRanges (α := α)) where
  length_eq bars := by
    rcases bars with _ | ⟨first, rest⟩
    · rfl
    · rw [trueRanges, List.length_cons, List.length_zipWith, List.length_cons]
      omega
  mono {bars more} h := by
    rcases bars with _ | ⟨first, rest⟩
    · exact List.nil_prefix
    · rcases h with ⟨zs, rfl⟩
      exact (List.prefix_cons_inj _).mpr (prefix_zipWith _ (List.prefix_append rest zs)
        (List.prefix_append (first :: rest) zs))

theorem causal_atr (length : ℕ) : Causal (atr (α := α) length) := by
  rcases Nat.eq_zero_or_pos length with rfl | hpos
  · exact Causal.replicate missing
  · refine Causal.of_gap missing (length - 1) (fun bars => smoothed length (trueRanges bars))
      (fun bars hbars => if_pos (.inr (by omega))) (fun bars hbars => if_neg (by omega)) ?_ ?_
    · intro bars hbars
      rw [length_smoothed, causal_trueRanges.length_eq]
      omega
    · intro bars more hbars h
      refine smoothed_mono ?_ (causal_trueRanges.mono h)
      rw [causal_trueRanges.length_eq]
      omega

theorem causal_obv : Causal (obv (α := α)) where
  length_eq bars := by
    rcases bars with _ | ⟨first, rest⟩
    · rfl
    · rw [obv, length_recurrence, List.length_zip, List.length_cons]
      omega
  mono {bars more} h := by
    rcases bars with _ | ⟨first, rest⟩
    · exact List.nil_prefix
    · rcases h with ⟨zs, rfl⟩
      exact recurrence_mono _ _ (prefix_zipWith _ (List.prefix_append rest zs)
        (List.prefix_append (first :: rest) zs))

end Indicator

/-! ### Series -/

theorem causal_closes : Causal (Bar.closes (α := Float)) :=
  Causal.map _

open Indicator in
theorem Study.causal_over (study : Study) (length : ℕ) : Causal (study.over length) := by
  cases study with
  | sma => exact (causal_sma length).comp causal_closes
  | ema => exact (causal_ema length).comp causal_closes
  | wma => exact (causal_overWindows length _).comp causal_closes
  | rsi => exact (causal_rsi length).comp causal_closes
  | roc => exact (causal_roc length).comp causal_closes
  | stddev => exact (causal_overWindows length _).comp causal_closes
  | atr => exact causal_atr length

open Indicator in
/-- **No series looks ahead.** -/
theorem Series.causal_over (s : Series) : Causal s.over := by
  cases s with
  | constant value => exact Causal.map _
  | price _ field => exact Causal.map _
  | windowed study _ length => exact study.causal_over length.toNat
  | obv => exact causal_obv
  | macd _ fast slow => exact (causal_macdLine fast.toNat slow.toNat).comp causal_closes
  | macdSignal _ fast slow signal =>
    exact (causal_macdSignal fast.toNat slow.toNat signal.toNat).comp causal_closes
  | band side _ length deviations =>
    cases side with
    | upper => exact (causal_overWindows length.toNat _).comp causal_closes
    | lower => exact (causal_overWindows length.toNat _).comp causal_closes
  | retracement _ level length => exact causal_overWindows length.toNat _

end TradeSignals
