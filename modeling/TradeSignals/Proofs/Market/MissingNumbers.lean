import TradeSignals.Proofs.Decimal.NotANumber
import TradeSignals.Proofs.Signals.Pointwise

/-!
# Bars without a number

A bar may have no close, and then a study of the closes should have no number for it either. For
doubles this is so because of what is computed: a missing number makes everything missing that
it enters into (`TradeSignals.Absorbing`). Whatever the number of a bar is computed from, the close
of the bar is among it, whether it stands at the end of a window, is the next number of a
recurrence or is looked at alone. The simple moving average is the exception: it leaves missing
numbers out of its sum and counts them instead, and the count is never zero while one of them is
in the window (`TradeSignals.Indicator.missing_slide`).

Two studies look at a change before they compute with it, and there a comparison decides. A
change that is missing is neither a gain nor a loss to the relative strength index, so it gives
what it would give if the close before had been repeated; and the rate of change from zero is zero,
whatever it is to. Both give a number where there is no close
(`TradeSignals.CloseStudy.Invents`), and all other studies give none
(`TradeSignals.CloseStudy.numbers_missing`).
-/

namespace TradeSignals

open Quantity

/-- **Quantities whose missing number absorbs** all others, and compares with none. -/
class Absorbing (α : Type) [Quantity α] : Prop where
  /-- There is one missing number. -/
  isMissing_missing : isMissing (missing : α) = true
  /-- A sum that begins with it. -/
  missing_add : ∀ x : α, missing + x = missing
  /-- A sum that ends with it. -/
  add_missing : ∀ x : α, x + missing = missing
  /-- A difference from it. -/
  missing_sub : ∀ x : α, missing - x = missing
  /-- A difference to it. -/
  sub_missing : ∀ x : α, x - missing = missing
  /-- A product that begins with it. -/
  missing_mul : ∀ x : α, missing * x = missing
  /-- A product that ends with it. -/
  mul_missing : ∀ x : α, x * missing = missing
  /-- A part of it. -/
  missing_div : ∀ x : α, missing / x = missing
  /-- Its root. -/
  sqrt_missing : sqrt (missing : α) = missing
  /-- It is not greater than anything. -/
  lt_missing : ∀ x : α, lt x missing = false
  /-- It is not less than anything. -/
  missing_lt : ∀ x : α, lt missing x = false

attribute [simp] Absorbing.isMissing_missing Absorbing.missing_add Absorbing.add_missing
  Absorbing.missing_sub Absorbing.sub_missing Absorbing.missing_mul Absorbing.mul_missing
  Absorbing.missing_div Absorbing.sqrt_missing Absorbing.lt_missing Absorbing.missing_lt

/-- **Doubles are such quantities.** -/
instance : Absorbing Float where
  isMissing_missing := rfl
  missing_add := NotANumber.missing_add
  add_missing := NotANumber.add_missing
  missing_sub := NotANumber.missing_sub
  sub_missing := NotANumber.sub_missing
  missing_mul := NotANumber.missing_mul
  mul_missing := NotANumber.mul_missing
  missing_div := NotANumber.missing_div
  sqrt_missing := NotANumber.sqrt_missing
  lt_missing x := decide_eq_false (NotANumber.not_lt_missing x)
  missing_lt x := decide_eq_false (NotANumber.not_missing_lt x)

/-- What a causal study gives for a thing depends on the things up to it. -/
theorem Causal.getElem?_take {β γ : Type} {f : List β → List γ} (hf : Causal f) (xs : List β)
    (i : ℕ) : (f (xs.take (i + 1)))[i]? = (f xs)[i]? := by
  obtain ⟨more, hmore⟩ := hf.mono (List.take_prefix (i + 1) xs)
  rcases Nat.lt_or_ge i xs.length with hi | hi
  · have hlength : i < (f (xs.take (i + 1))).length := by
      rw [hf.length_eq, List.length_take]
      omega
    rw [← hmore, List.getElem?_append_left hlength]
  · rw [List.take_of_length_le (Nat.le_succ_of_le hi)]

namespace Indicator

variable {α β : Type} [Quantity α]

/-! ### Gaps -/

theorem length_gaps (count : ℕ) : (gaps count : List α).length = count :=
  List.length_replicate

theorem getElem?_gaps {count i : ℕ} (h : i < count) :
    (gaps count : List α)[i]? = some missing :=
  List.getElem?_replicate_of_lt h

/-- Within the gap in front of numbers. -/
theorem getElem?_gaps_append {count i : ℕ} (xs : List α) (h : i < count) :
    (gaps count ++ xs)[i]? = some missing := by
  rw [List.getElem?_append_left (by rwa [length_gaps]), getElem?_gaps h]

/-- Beyond the gap in front of numbers. -/
theorem getElem?_gaps_append_of_le {count i : ℕ} (xs : List α) (h : count ≤ i) :
    (gaps count ++ xs)[i]? = xs[i - count]? := by
  rw [List.getElem?_append_right (by rwa [length_gaps]), length_gaps]

/-! ### Windows and recurrences -/

/-- **A study of windows** has no number for a bar without one, since the window of the bar ends
with it. -/
theorem overWindows_missing {length i : ℕ} {value : List α → α} {xs : List α}
    (hvalue : ∀ window, missing ∈ window → value window = missing) (h : xs[i]? = some missing) :
    (overWindows length value xs)[i]? = some missing := by
  obtain ⟨hi, -⟩ := List.getElem?_eq_some_iff.1 h
  rw [overWindows]
  split
  next => exact getElem?_gaps hi
  next hlong =>
    rcases Nat.lt_or_ge i (length - 1) with hgap | hwindow
    · exact getElem?_gaps_append _ hgap
    · rw [getElem?_gaps_append_of_le _ hwindow, windows, List.map_map, List.getElem?_map,
        List.getElem?_range (by omega), Option.map_some, Function.comp_apply]
      refine congrArg some (hvalue _ (List.mem_iff_getElem?.2 ⟨length - 1, ?_⟩))
      rw [List.getElem?_take_of_lt (by omega), List.getElem?_drop, Nat.sub_add_cancel hwindow, h]

section Recurrence

omit [Quantity α]

theorem getElem?_recurrence_zero (step : α → β → α) (first : α) (xs : List β) :
    (recurrence step first xs)[0]? = some first := by
  cases xs <;> rfl

/-- **A recurrence** gives for each thing what it goes on to give from there. -/
theorem getElem?_recurrence_succ (step : α → β → α) {first : α} {xs : List β} {i : ℕ} {x : β}
    (h : xs[i]? = some x) : (recurrence step first xs)[i + 1]? =
      (recurrence step first xs)[i]?.map fun a => step a x := by
  induction xs generalizing first i with
  | nil => cases h
  | cons y xs ih =>
    rcases i with _ | i
    · cases h
      exact getElem?_recurrence_zero step (step first x) xs
    · exact ih h

theorem exists_getElem?_recurrence (step : α → β → α) (first : α) {xs : List β} {i : ℕ}
    (h : i ≤ xs.length) : ∃ a, (recurrence step first xs)[i]? = some a :=
  ⟨_, List.getElem?_eq_getElem (by rw [length_recurrence]; exact Nat.lt_succ_of_le h)⟩

end Recurrence

variable [Absorbing α]

/-! ### Sums -/

/-- A sum with a missing number in it is missing. -/
theorem sum_of_mem {xs : List α} (h : missing ∈ xs) : sum xs = missing := by
  -- Once the total is missing, it stays so.
  have hfrom : ∀ (ys : List α) (total : α), (missing ∈ ys ∨ total = missing) →
      ys.foldl (· + ·) total = missing := by
    intro ys
    induction ys with
    | nil =>
      rintro total (hmem | htotal)
      · cases hmem
      · exact htotal
    | cons y ys ih =>
      rintro total (hmem | rfl)
      · rcases List.mem_cons.1 hmem with rfl | hmem
        · exact ih _ (.inr (Absorbing.add_missing total))
        · exact ih _ (.inl hmem)
      · exact ih _ (.inr (Absorbing.missing_add y))
  exact hfrom xs _ (.inl h)

theorem mean_of_mem {window : List α} (h : missing ∈ window) : mean window = missing := by
  rw [mean, sum_of_mem h, Absorbing.missing_div]

theorem sum_weighted_of_mem {window : List α} (h : missing ∈ window) :
    sum (weighted window) = missing := by
  obtain ⟨i, hi, hwindow⟩ := List.mem_iff_getElem.1 h
  refine sum_of_mem (List.mem_iff_getElem.2 ⟨i, by rwa [weighted, List.length_mapIdx], ?_⟩)
  simp only [weighted, List.getElem_mapIdx, hwindow, Absorbing.mul_missing]

theorem deviation_of_mem {window : List α} (h : missing ∈ window) :
    deviation window = missing := by
  have hsquares : missing ∈ window.map fun x => (x - mean window) * (x - mean window) :=
    List.mem_map.2 ⟨missing, h, by simp⟩
  simp only [deviation, sum_of_mem hsquares, Absorbing.missing_div, Absorbing.sqrt_missing]

/-! ### Averages -/

section Count

omit [Absorbing α]

/-- How many numbers are missing in a run. -/
def gapCount (xs : List α) : ℕ := xs.countP isMissing

theorem gapCount_append (xs ys : List α) : gapCount (xs ++ ys) = gapCount xs + gapCount ys :=
  List.countP_append

theorem missing_enter (w : Rolling α) (x : α) :
    (w.enter x).missing = w.missing + gapCount [x] := by
  rw [Rolling.enter, gapCount, List.countP_singleton]
  split <;> rfl

theorem missing_leave (w : Rolling α) (x : α) :
    (w.leave x).missing = w.missing - gapCount [x] := by
  rw [Rolling.leave, gapCount, List.countP_singleton]
  split <;> rfl

theorem missing_foldl_enter (w : Rolling α) (xs : List α) :
    (xs.foldl Rolling.enter w).missing = w.missing + gapCount xs := by
  induction xs generalizing w with
  | nil => rfl
  | cons x xs ih =>
    rw [List.foldl_cons, ih, missing_enter, Nat.add_assoc, ← gapCount_append,
      List.singleton_append]

/-- **What is counted while the window slides** is how many of its numbers are missing. -/
theorem missing_slide {length i : ℕ} {xs : List α} {w w' : Rolling α}
    (hw : w.missing = gapCount (xs.take (length + 1)))
    (h : (slide w (xs.drop (length + 1)) xs)[i]? = some w') :
    w'.missing = gapCount ((xs.drop (i + 1)).take (length + 1)) := by
  induction xs generalizing w i with
  | nil => cases h
  | cons old xs ih =>
    rw [List.drop_succ_cons] at h
    rcases hentering : xs.drop length with _ | ⟨x, entering⟩
    · rw [hentering] at h
      cases h
    · rw [hentering] at h
      -- One number comes in at the end of the window, and the oldest goes out.
      obtain ⟨hx, hrest⟩ : xs[length]? = some x ∧ entering = xs.drop (length + 1) := by
        rw [← List.head?_drop, ← List.tail_drop, hentering]
        exact ⟨rfl, rfl⟩
      have hcount : ((w.enter x).leave old).missing = gapCount (xs.take (length + 1)) := by
        rw [missing_leave, missing_enter, hw, List.take_succ_cons, List.take_add_one, hx,
          gapCount_append, ← List.singleton_append, gapCount_append]
        simp only [Option.toList_some]
        omega
      rcases i with _ | i
      · cases h
        exact hcount
      · rw [hrest] at h
        exact ih hcount h

theorem gapCount_pos_of_mem {xs : List α} {x : α} (hx : isMissing x = true) (h : x ∈ xs) :
    0 < gapCount xs :=
  List.countP_pos_iff.2 ⟨x, h, hx⟩

end Count

/-- **The simple moving average** has no number for a bar without one. -/
theorem sma_missing {length i : ℕ} {xs : List α} (h : xs[i]? = some missing) :
    (sma length xs)[i]? = some missing := by
  obtain ⟨hi, -⟩ := List.getElem?_eq_some_iff.1 h
  rw [sma]
  split
  next => exact getElem?_gaps hi
  next hlong =>
    obtain ⟨length, rfl⟩ : ∃ n, length = n + 1 := ⟨length - 1, by omega⟩
    dsimp only
    rw [Nat.add_sub_cancel]
    generalize hfirst : (xs.take (length + 1)).foldl Rolling.enter ⟨ofInt 0, 0⟩ = first
    have hcount : first.missing = gapCount (xs.take (length + 1)) := by
      rw [← hfirst, missing_foldl_enter, Nat.zero_add]
    rcases Nat.lt_or_ge i length with hgap | hwindow
    · exact getElem?_gaps_append _ hgap
    · obtain ⟨k, rfl⟩ : ∃ k, i = k + length := ⟨i - length, by omega⟩
      obtain ⟨w, hw⟩ : ∃ w, (first :: slide first (xs.drop (length + 1)) xs)[k]? = some w := by
        refine ⟨_, List.getElem?_eq_getElem ?_⟩
        rw [List.length_cons, length_slide _ (List.length_drop ▸ Nat.sub_le _ _), List.length_drop]
        omega
      have hmissing : w.missing = gapCount ((xs.drop k).take (length + 1)) := by
        rcases k with _ | k
        · cases hw
          exact hcount
        · exact missing_slide hcount hw
      have hmem : missing ∈ (xs.drop k).take (length + 1) :=
        List.mem_iff_getElem?.2 ⟨length, by
          rw [List.getElem?_take_of_lt (Nat.lt_succ_self length), List.getElem?_drop, h]⟩
      have hpos := gapCount_pos_of_mem Absorbing.isMissing_missing hmem
      rw [getElem?_gaps_append_of_le _ hwindow, Nat.add_sub_cancel, List.getElem?_map, hw,
        Option.map_some, Rolling.mean, if_neg (by omega)]

theorem emaFrom_missing {length i : ℕ} {xs : List α} (h : xs[i]? = some missing) :
    (emaFrom length xs)[i]? = some missing := by
  obtain ⟨hi, -⟩ := List.getElem?_eq_some_iff.1 h
  rw [emaFrom]
  split
  next => exact getElem?_gaps hi
  next hlong =>
    rcases Nat.lt_trichotomy (i + 1) length with hgap | rfl | hlater
    · exact getElem?_gaps_append _ (by omega)
    · -- The bar ends the first window.
      have hmem : missing ∈ xs.take (i + 1) :=
        List.mem_iff_getElem?.2 ⟨i, by rw [List.getElem?_take_of_lt (Nat.lt_succ_self i), h]⟩
      rw [Nat.add_sub_cancel, getElem?_gaps_append_of_le _ (Nat.le_refl i), Nat.sub_self,
        getElem?_recurrence_zero, sum_of_mem hmem, Absorbing.missing_div]
    · have hnext : (xs.drop length)[i - length]? = some missing := by
        rw [List.getElem?_drop, Nat.add_sub_cancel' (by omega), h]
      obtain ⟨hlt, -⟩ := List.getElem?_eq_some_iff.1 hnext
      rw [getElem?_gaps_append_of_le _ (by omega),
        show i - (length - 1) = i - length + 1 by omega, getElem?_recurrence_succ _ hnext]
      obtain ⟨average, haverage⟩ := exists_getElem?_recurrence _ _ (Nat.le_of_lt hlt)
      rw [haverage, Option.map_some, Absorbing.missing_mul, Absorbing.missing_add]

theorem ema_missing {length i : ℕ} {xs : List α} (h : xs[i]? = some missing) :
    (ema length xs)[i]? = some missing := by
  rw [ema_eq]
  rcases Nat.lt_or_ge i (leadingGaps xs) with hgap | hlater
  · exact getElem?_gaps_append _ hgap
  · rw [getElem?_gaps_append_of_le _ hlater]
    exact emaFrom_missing (by rw [List.getElem?_drop, Nat.add_sub_cancel' hlater, h])

omit [Absorbing α] in
theorem getElem?_zipWith_missing {xs ys : List α} {op : α → α → α} {i : ℕ}
    (hop : ∀ y, op missing y = missing) (hlength : xs.length = ys.length)
    (h : xs[i]? = some missing) : (List.zipWith op xs ys)[i]? = some missing := by
  obtain ⟨hi, -⟩ := List.getElem?_eq_some_iff.1 h
  rw [List.getElem?_zipWith, h, List.getElem?_eq_getElem (hlength ▸ hi)]
  exact congrArg some (hop _)

theorem macdLine_missing {fast slow i : ℕ} {xs : List α} (h : xs[i]? = some missing) :
    (macdLine fast slow xs)[i]? = some missing :=
  getElem?_zipWith_missing Absorbing.missing_sub
    (((causal_ema fast).length_eq xs).trans ((causal_ema slow).length_eq xs).symm) (ema_missing h)

/-! ### Change -/

/-- **The rate of change** of a bar without a number is missing, too, unless it is from zero. -/
theorem roc_missing {length i : ℕ} {xs : List α} (h : xs[i]? = some missing) :
    (roc length xs)[i]? = some (if 0 < length ∧ length ≤ i ∧ xs[i - length]?.any isZero
      then ofInt 0 else missing) := by
  obtain ⟨hi, -⟩ := List.getElem?_eq_some_iff.1 h
  rw [roc]
  split
  next hshort =>
    rw [if_neg (by omega)]
    exact getElem?_gaps hi
  next hlong =>
    rcases Nat.lt_or_ge i length with hgap | hlater
    · rw [if_neg (by omega)]
      exact getElem?_gaps_append _ hgap
    · have hold : xs[i - length]? = some xs[i - length] := List.getElem?_eq_getElem (by omega)
      have hnow : (xs.drop length)[i - length]? = some missing := by
        rw [List.getElem?_drop, Nat.add_sub_cancel' hlater, h]
      rw [getElem?_gaps_append_of_le _ hlater, List.getElem?_zipWith, hnow, hold, Option.any_some]
      refine congrArg some ?_
      rw [percentChange, Absorbing.missing_sub, Absorbing.missing_div, Absorbing.missing_mul]
      by_cases hzero : isZero xs[i - length] = true
      · rw [if_pos hzero, if_pos ⟨by omega, hlater, hzero⟩]
      · rw [if_neg hzero, if_neg fun h => hzero h.2.2]

omit [Absorbing α] in
theorem changes_concat {xs : List α} {old : α} (h : xs.getLast? = some old) (x : α) :
    changes (xs ++ [x]) = changes xs ++ [x - old] := by
  induction xs with
  | nil => cases h
  | cons first rest ih =>
    rcases rest with _ | ⟨second, rest⟩
    · cases h
      rfl
    · rw [List.getLast?_cons_cons] at h
      exact congrArg (_ :: ·) (ih h)

section Strength

omit [Absorbing α]

theorem gain_of_not_lt {change : α} (h : lt (ofInt 0) change = false) : gain change = ofInt 0 := by
  rw [gain, h, if_neg Bool.false_ne_true]

theorem loss_of_not_lt {change : α} (h : lt change (ofInt 0) = false) : loss change = ofInt 0 := by
  rw [loss, h, if_neg Bool.false_ne_true]

/-- Runs with the same gains and losses have the same strength. -/
theorem rsi_congr (length : ℕ) {xs ys : List α} (hlength : xs.length = ys.length)
    (hgain : (changes xs).map gain = (changes ys).map gain)
    (hloss : (changes xs).map loss = (changes ys).map loss) : rsi length xs = rsi length ys := by
  rw [rsi, rsi]
  dsimp only
  rw [hlength, hgain, hloss]

end Strength

/-- **The relative strength index** takes a missing number for the one before it: both are no
change. -/
theorem rsi_missing (length : ℕ) {i : ℕ} {xs : List α} {old : α} (h : xs[i + 1]? = some missing)
    (hbefore : xs[i]? = some old) (hgain : lt (ofInt 0) (old - old) = false)
    (hloss : lt (old - old) (ofInt 0) = false) :
    (rsi length xs)[i + 1]? = (rsi length (xs.set (i + 1) old))[i + 1]? := by
  obtain ⟨hi, hget⟩ := List.getElem?_eq_some_iff.1 h
  have hlast : (xs.take (i + 1)).getLast? = some old := by
    rw [List.getLast?_take, if_neg (Nat.succ_ne_zero i), Nat.add_sub_cancel, hbefore]
    rfl
  have hends : xs.take (i + 1 + 1) = xs.take (i + 1) ++ [missing] := by
    rw [List.take_succ_eq_append_getElem hi, hget]
  have hrepeats : (xs.set (i + 1) old).take (i + 1 + 1) = xs.take (i + 1) ++ [old] := by
    rw [List.take_succ_eq_append_getElem (by rwa [List.length_set]), List.getElem_set_self,
      List.take_set_of_le (Nat.le_refl _)]
  -- What comes after the bar does not matter, and of the run up to it only the end differs.
  rw [← (causal_rsi length).getElem?_take xs, ← (causal_rsi length).getElem?_take (xs.set _ _),
    hends, hrepeats]
  refine congrArg (·[i + 1]?) (rsi_congr length ?_ ?_ ?_)
  · rw [List.length_append, List.length_append]
    rfl
  · rw [changes_concat hlast, changes_concat hlast, List.map_append, List.map_append,
      List.map_singleton, List.map_singleton, gain_of_not_lt hgain, Absorbing.missing_sub,
      gain_of_not_lt (Absorbing.lt_missing _)]
  · rw [changes_concat hlast, changes_concat hlast, List.map_append, List.map_append,
      List.map_singleton, List.map_singleton, loss_of_not_lt hloss, Absorbing.missing_sub,
      loss_of_not_lt (Absorbing.missing_lt _)]

end Indicator

/-! ### Comparisons -/

namespace Signals

section Related

variable {a b : List Float} {i : ℕ} {x y : Float}

/-- The numbers that are compared on a bar. -/
theorem of_getElem?_pairs (h : (pairs a b)[i]? = some (x, y)) :
    a[i]? = some x ∧ y = b[i]?.getD missing := by
  obtain ⟨ha, hb⟩ := List.getElem?_zip_eq_some.1 h
  obtain ⟨hi, -⟩ := List.getElem?_eq_some_iff.1 ha
  rw [Column.fit_eq_along, Column.getElem?_along _ hi] at hb
  exact ⟨ha, (Option.some.inj hb).symm⟩

/-- A missing number is neither more nor less than another one. -/
theorem not_lt_of_missing (h : x = missing ∨ y = missing) : ¬x > y ∧ ¬x < y := by
  rcases h with rfl | rfl
  · exact ⟨NotANumber.not_lt_missing y, NotANumber.not_missing_lt y⟩
  · exact ⟨NotANumber.not_missing_lt x, NotANumber.not_lt_missing x⟩

theorem of_getElem?_againstPrevious {β : Type} {holds : β → β → Bool} {xs : List β}
    (h : (againstPrevious holds xs)[i]? = some true) :
    ∃ before now, xs[i]? = some now ∧ holds before now = true := by
  rw [Indexed.getElem?_againstPrevious] at h
  obtain ⟨now, hnow, hholds⟩ := Option.map_eq_some_iff.1 h
  split at hholds
  next => cases hholds
  next =>
    rcases hbefore : xs[i - 1]? with _ | before
    · rw [hbefore] at hholds
      cases hholds
    · rw [hbefore] at hholds
      exact ⟨before, now, hnow, hholds⟩

/-- **No comparison holds on a bar** on which one of the two series has no number. -/
theorem related_missing (relation : Relation)
    (h : a[i]? = some missing ∨ b[i]? = some missing) :
    (related relation a b)[i]? ≠ some true := by
  intro hholds
  have hzip : ∀ {p : Float × Float}, (a.zip b)[i]? = some p → p.1 = missing ∨ p.2 = missing := by
    intro p hp
    obtain ⟨ha, hb⟩ := List.getElem?_zip_eq_some.1 hp
    rw [ha, hb] at h
    exact h.imp Option.some.inj Option.some.inj
  have hpairs : ∀ {p : Float × Float}, (pairs a b)[i]? = some p →
      p.1 = missing ∨ p.2 = missing := by
    intro p hp
    obtain ⟨ha, hb⟩ := of_getElem?_pairs hp
    rw [ha] at h
    exact h.imp Option.some.inj fun hmissing => by rw [hb, hmissing, Option.getD_some]
  cases relation with
  | above =>
    rw [related, List.getElem?_map] at hholds
    obtain ⟨p, hp, hdecide⟩ := Option.map_eq_some_iff.1 hholds
    exact (not_lt_of_missing (hzip hp)).1 (of_decide_eq_true hdecide)
  | below =>
    rw [related, List.getElem?_map] at hholds
    obtain ⟨p, hp, hdecide⟩ := Option.map_eq_some_iff.1 hholds
    exact (not_lt_of_missing (hzip hp)).2 (of_decide_eq_true hdecide)
  | crossedAbove =>
    obtain ⟨before, now, hnow, hcrossed⟩ := of_getElem?_againstPrevious hholds
    rw [Bool.and_eq_true] at hcrossed
    exact (not_lt_of_missing (hpairs hnow)).1 (of_decide_eq_true hcrossed.2)
  | crossedBelow =>
    obtain ⟨before, now, hnow, hcrossed⟩ := of_getElem?_againstPrevious hholds
    rw [Bool.and_eq_true] at hcrossed
    exact (not_lt_of_missing (hpairs hnow)).2 (of_decide_eq_true hcrossed.2)

end Related

end Signals

/-! ### Studies of closes -/

/-- The studies of closes. -/
inductive CloseStudy where
  /-- The simple moving average. -/
  | sma (length : ℕ)
  /-- The exponential moving average. -/
  | ema (length : ℕ)
  /-- The weighted moving average. -/
  | wma (length : ℕ)
  /-- The relative strength index. -/
  | rsi (length : ℕ)
  /-- The rate of change. -/
  | roc (length : ℕ)
  /-- The standard deviation. -/
  | stddev (length : ℕ)
  /-- The line above the mean. -/
  | upperBand (length : ℕ) (deviations : Float)
  /-- The mean. -/
  | middleBand (length : ℕ)
  /-- The line below the mean. -/
  | lowerBand (length : ℕ) (deviations : Float)
  /-- The distance of two exponential averages. -/
  | macdLine (fast slow : ℕ)
  /-- Its exponential average. -/
  | macdSignal (fast slow signal : ℕ)
  /-- The distance from that to it. -/
  | macdHistogram (fast slow signal : ℕ)

namespace CloseStudy

/-- The numbers of a study of closes. -/
def numbers (closes : List Float) : CloseStudy → List Float
  | .sma length => Indicator.sma length closes
  | .ema length => Indicator.ema length closes
  | .wma length => Indicator.wma length closes
  | .rsi length => Indicator.rsi length closes
  | .roc length => Indicator.roc length closes
  | .stddev length => Indicator.stddev length closes
  | .upperBand length deviations => Indicator.upperBand length deviations closes
  | .middleBand length => Indicator.middleBand length closes
  | .lowerBand length deviations => Indicator.lowerBand length deviations closes
  | .macdLine fast slow => Indicator.macdLine fast slow closes
  | .macdSignal fast slow signal => Indicator.macdSignal fast slow signal closes
  | .macdHistogram fast slow signal => Indicator.macdHistogram fast slow signal closes

/-- **Where a study gives a number** for a bar that need not have a close: the relative strength
index everywhere after its gap, and the rate of change where it is from zero. -/
def Invents (closes : List Float) (i : ℕ) : CloseStudy → Prop
  | .rsi length => 0 < length ∧ length ≤ i
  | .roc length => 0 < length ∧ length ≤ i ∧ closes[i - length]?.any (· == 0) = true
  | _ => False

/-- What a study gives there for a bar without one. -/
def Invented (closes : List Float) (i : ℕ) : CloseStudy → Prop
  | .rsi length => ∃ before, closes[i - 1]? = some before ∧
      (Indicator.rsi length closes)[i]? = (Indicator.rsi length (closes.set i before))[i]?
  | .roc length => (Indicator.roc length closes)[i]? = some 0
  | _ => False

section Missing

open Indicator

variable {closes : List Float} {i : ℕ}

/-- Where a study does not invent a number, it has none. -/
theorem numbers_of_not_invents (study : CloseStudy) (h : closes[i]? = some missing)
    (hnot : ¬study.Invents closes i) : (study.numbers closes)[i]? = some missing := by
  cases study with
  | sma length => exact sma_missing h
  | ema length => exact ema_missing h
  | wma length =>
    refine overWindows_missing (fun window hwindow => ?_) h
    rw [sum_weighted_of_mem hwindow, Absorbing.missing_div]
  | rsi length =>
    obtain ⟨hi, -⟩ := List.getElem?_eq_some_iff.1 h
    rw [numbers, Indicator.rsi]
    split
    next => exact getElem?_gaps hi
    next hlong =>
      refine getElem?_gaps_append _ (Nat.lt_of_not_le fun hle => hnot ⟨?_, hle⟩)
      omega
  | roc length => exact (roc_missing h).trans (congrArg some (if_neg hnot))
  | stddev length => exact overWindows_missing (fun _ => deviation_of_mem) h
  | upperBand length deviations =>
    refine overWindows_missing (fun window hwindow => ?_) h
    rw [mean_of_mem hwindow, Absorbing.missing_add]
  | middleBand length => exact overWindows_missing (fun _ => mean_of_mem) h
  | lowerBand length deviations =>
    refine overWindows_missing (fun window hwindow => ?_) h
    rw [mean_of_mem hwindow, Absorbing.missing_sub]
  | macdLine fast slow => exact macdLine_missing h
  | macdSignal fast slow signal => exact ema_missing (macdLine_missing h)
  | macdHistogram fast slow signal =>
    have hlength : (Indicator.macdLine fast slow closes).length =
        (Indicator.macdSignal fast slow signal closes).length :=
      ((causal_macdLine fast slow).length_eq closes).trans
        ((causal_macdSignal fast slow signal).length_eq closes).symm
    exact getElem?_zipWith_missing Absorbing.missing_sub hlength (macdLine_missing h)

/-- Where a study invents a number, it is that of no change. -/
theorem invented_of_invents (study : CloseStudy) (h : closes[i]? = some missing)
    (hinvents : study.Invents closes i) : study.Invented closes i := by
  cases study with
  | rsi length =>
    obtain ⟨hlength, hi⟩ := hinvents
    obtain ⟨hlt, -⟩ := List.getElem?_eq_some_iff.1 h
    obtain ⟨i, rfl⟩ : ∃ k, i = k + 1 := ⟨i - 1, by omega⟩
    have hbefore : closes[i]? = some closes[i] := List.getElem?_eq_getElem (by omega)
    obtain ⟨hgain, hloss⟩ := NotANumber.sub_self_not_lt closes[i]
    exact ⟨closes[i], hbefore,
      rsi_missing length h hbefore (decide_eq_false hgain) (decide_eq_false hloss)⟩
  | roc length => exact (roc_missing h).trans (congrArg some (if_pos hinvents))
  | _ => exact hinvents

/-- **What becomes of a bar without a close.** A study has no number for it either, so that no
comparison with another series holds there; unless the study is one of the two that go by changes,
and past its gap. Then the relative strength index gives what it would give if the close before had
been repeated, and the rate of change gives zero if it is from zero. -/
theorem numbers_missing (study : CloseStudy) {x : Float} (hx : closes[i]? = some x)
    (hmissing : x.isNaN = true) :
    (¬study.Invents closes i → ∃ y, (study.numbers closes)[i]? = some y ∧ y.isNaN = true ∧
      ∀ relation other, (Signals.related relation (study.numbers closes) other)[i]? ≠ some true ∧
        (Signals.related relation other (study.numbers closes))[i]? ≠ some true) ∧
    (study.Invents closes i → study.Invented closes i) := by
  obtain rfl := NotANumber.eq_missing hmissing
  refine ⟨fun hnot => ?_, study.invented_of_invents hx⟩
  have hnumber := study.numbers_of_not_invents hx hnot
  exact ⟨missing, hnumber, rfl, fun relation other =>
    ⟨Signals.related_missing relation (.inl hnumber),
      Signals.related_missing relation (.inr hnumber)⟩⟩

/-- The second of three closes is missing, and so is the second mean of two of them. -/
theorem numbers_missing_sma :
    [(1 : Float), missing, 3][1]? = some missing ∧ (missing : Float).isNaN = true ∧
      ¬(CloseStudy.sma 2).Invents [1, missing, 3] 1 ∧
      ∃ y, ((CloseStudy.sma 2).numbers [1, missing, 3])[1]? = some y ∧ y.isNaN = true := by
  have hnot : ¬(CloseStudy.sma 2).Invents [1, missing, 3] 1 := id
  obtain ⟨y, hy, hnan, -⟩ := (numbers_missing (.sma 2) rfl rfl).1 hnot
  exact ⟨rfl, rfl, hnot, y, hy, hnan⟩

/-- **Numbers for bars without a close.** The relative strength index gives fifty for such a bar,
which is below sixty, and the rate of change from zero is zero. -/
theorem numbers_invented :
    let closes : List Float := [10, 11, 10, missing]
    let strengths := (CloseStudy.rsi 2).numbers closes
    closes[3]? = some missing ∧ strengths[3]? = some 50 ∧ (50 : Float).isNaN = false ∧
      (Signals.related .below strengths [60, 60, 60, 60])[3]? = some true ∧
      ((CloseStudy.roc 1).numbers [0, missing])[1]? = some 0 ∧ (0 : Float).isNaN = false := by
  decide +kernel

end Missing

end CloseStudy

end TradeSignals
