import TradeSignals.Proofs.Market.MissingNumbers

/-!
# Gaps in front of averages

Numbers that are missing in front of a run move its exponential average along and leave it alone
otherwise (`TradeSignals.Indicator.ema_append`). This is what makes the average of an average begin
where it should: the distance of two averages has a gap in front that is as long as that of the
later one, and the average of the distance is that of what follows the gap, moved along by its
length (`TradeSignals.Indicator.macdSignal_afterGap`).

Nothing has to be known of the numbers for the first, since none of the missing ones is computed
with. For the second a difference has to be missing where one side of it is.
-/

namespace TradeSignals.Indicator

open Quantity hiding max min

variable {α : Type} [Quantity α] {front : List α}

/-- The gap of a run with missing numbers in front. -/
theorem leadingGaps_append (h : ∀ x ∈ front, isMissing x = true) (xs : List α) :
    leadingGaps (front ++ xs) = front.length + leadingGaps xs := by
  rw [leadingGaps, List.takeWhile_append_of_pos h, List.length_append, leadingGaps]

/-- **Missing numbers in front** move an exponential average along. -/
theorem ema_append (h : ∀ x ∈ front, isMissing x = true) (length : ℕ) (xs : List α) :
    ema length (front ++ xs) = gaps front.length ++ ema length xs := by
  rw [ema_eq, ema_eq, leadingGaps_append h, List.drop_length_add_append, ← List.append_assoc,
    gaps, gaps, gaps, List.replicate_append_replicate]

/-- An exponential average is missing up to the end of its first window. -/
theorem getElem?_ema_of_lt {length i : ℕ} {xs : List α} (hi : i < xs.length)
    (h : i < leadingGaps xs + (length - 1)) : (ema length xs)[i]? = some missing := by
  rw [ema]
  dsimp only
  split
  next => exact getElem?_gaps hi
  next hlong => exact getElem?_gaps_append _ (by omega)

section Distance

variable {fast slow i : ℕ} {xs : List α}
  (hsub : ∀ x : α, isMissing (x - missing) = true ∧ isMissing (missing - x) = true)

include hsub

/-- **The distance of two averages** is missing up to the end of the longer first window. -/
theorem isMissing_macdLine (hi : i < xs.length) (h : i < max fast slow - 1 + leadingGaps xs) :
    ∃ x, (macdLine fast slow xs)[i]? = some x ∧ isMissing x = true := by
  have hexists : ∀ length, ∃ x, (ema length xs)[i]? = some x := fun length =>
    ⟨_, List.getElem?_eq_getElem (((causal_ema length).length_eq xs).symm ▸ hi)⟩
  obtain ⟨x, hx⟩ := hexists fast
  obtain ⟨y, hy⟩ := hexists slow
  refine ⟨x - y, by rw [macdLine, List.getElem?_zipWith, hx, hy], ?_⟩
  -- The average over the longer window is the one that has no number yet.
  rcases Nat.le_total fast slow with hle | hle
  · have hmissing : (ema slow xs)[i]? = some missing := getElem?_ema_of_lt hi (by omega)
    obtain rfl : y = missing := Option.some.inj (hy.symm.trans hmissing)
    exact (hsub x).1
  · have hmissing : (ema fast xs)[i]? = some missing := getElem?_ema_of_lt hi (by omega)
    obtain rfl : x = missing := Option.some.inj (hx.symm.trans hmissing)
    exact (hsub y).2

/-- The average of the distance is that of what follows the gap of the distance. -/
theorem macdSignal_eq (signal : ℕ) {width : ℕ}
    (hwidth : width = max fast slow - 1 + leadingGaps xs) (hle : width ≤ xs.length) :
    macdSignal fast slow signal xs =
      gaps width ++ ema signal ((macdLine fast slow xs).drop width) := by
  have hfront : ∀ x ∈ (macdLine fast slow xs).take width, isMissing x = true := by
    intro x hx
    obtain ⟨i, hi⟩ := List.mem_iff_getElem?.1 hx
    obtain ⟨hlt, -⟩ := List.getElem?_eq_some_iff.1 hi
    rw [List.length_take] at hlt
    rw [List.getElem?_take_of_lt (by omega)] at hi
    obtain ⟨y, hy, hmissing⟩ : ∃ y, (macdLine fast slow xs)[i]? = some y ∧ isMissing y = true :=
      isMissing_macdLine hsub (by omega) (by omega)
    exact Option.some.inj (hi.symm.trans hy) ▸ hmissing
  have hlength : ((macdLine fast slow xs).take width).length = width := by
    rw [List.length_take, (causal_macdLine fast slow).length_eq, Nat.min_eq_left hle]
  have hsplit := ema_append hfront signal ((macdLine fast slow xs).drop width)
  rwa [List.take_append_drop, hlength] at hsplit

end Distance

/-- **An exponential average ignores missing numbers in front**, whatever else is in the run and
whatever the length of its windows. So **the average of the distance** of two averages is that of
the defined part of the distance: the distance is missing for as long as the later of the two
averages is, its average is missing for as long and then is that of what follows, and the
histogram is the difference of the two. -/
theorem macdSignal_afterGap {α : Type} [Quantity α] :
    (∀ (length : ℕ) (front xs : List α), (∀ x ∈ front, isMissing x = true) →
      ema length (front ++ xs) = gaps front.length ++ ema length xs) ∧
    ((∀ x : α, isMissing (x - missing) = true ∧ isMissing (missing - x) = true) →
      ∀ (fast slow signal width : ℕ) (xs : List α),
        width = max fast slow - 1 + leadingGaps xs → width ≤ xs.length →
        let distance := macdLine fast slow xs
        (∀ i < width, ∃ x, distance[i]? = some x ∧ isMissing x = true) ∧
          macdSignal fast slow signal xs = gaps width ++ ema signal (distance.drop width) ∧
          macdHistogram fast slow signal xs =
            List.zipWith (· - ·) distance (gaps width ++ ema signal (distance.drop width))) := by
  refine ⟨fun length front xs h => ema_append h length xs, ?_⟩
  intro hsub fast slow signal width xs hwidth hle
  have hsignal := macdSignal_eq hsub signal hwidth hle
  refine ⟨fun i hi => isMissing_macdLine hsub (hi.trans_le hle) (hwidth ▸ hi), hsignal, ?_⟩
  rw [macdHistogram, hsignal]

/-- Two bars without a close in front of four with one, and windows of two and three bars: the
distance begins with the fifth bar, and its average over two bars with the sixth. -/
theorem macdSignal_afterGap_twoMissing :
    let xs : List Float := [missing, missing, 1, 2, 4, 8]
    (∀ x ∈ [missing, (missing : Float)], isMissing x = true) ∧
      (∀ x : Float, isMissing (x - missing) = true ∧ isMissing (missing - x) = true) ∧
      4 = max 2 3 - 1 + leadingGaps xs ∧ 4 ≤ xs.length ∧
      ema 2 xs = gaps 2 ++ ema 2 [1, 2, 4, 8] ∧
      macdSignal 2 3 2 xs = gaps 4 ++ ema 2 ((macdLine 2 3 xs).drop 4) ∧
      ((macdSignal 2 3 2 xs).map isMissing) = [true, true, true, true, true, false] := by
  intro xs
  have hfront : ∀ x ∈ [missing, (missing : Float)], isMissing x = true := by
    simp [Absorbing.isMissing_missing]
  have hsub : ∀ x : Float, isMissing (x - missing) = true ∧ isMissing (missing - x) = true := by
    simp
  have hwidth : 4 = max 2 3 - 1 + leadingGaps xs := by decide +kernel
  have hle : 4 ≤ xs.length := by decide
  have hsignal := (macdSignal_afterGap.2 hsub 2 3 2 4 xs hwidth hle).2.1
  exact ⟨hfront, hsub, hwidth, hle, macdSignal_afterGap.1 2 _ [1, 2, 4, 8] hfront, hsignal,
    by decide +kernel⟩

end TradeSignals.Indicator
