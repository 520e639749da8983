import Mathlib.Data.List.Basic
import Mathlib.Data.List.ReduceOption
import TradeSignals.Proofs.Market.ExactNumbers

/-!
# The simple moving average is the mean of each window

The simple moving average does not look at its windows. It goes on from one to the next: the number
that comes in is added to a running sum, the oldest one is taken off again, and what is missing is
counted instead. In exact arithmetic it comes to the same as to take every window afresh
(`TradeSignals.Indicator.sma_eq_mean`).

What is known after so many numbers is said by `TradeSignals.Indicator.Rolling.after`, in one way
for the first window, which only grows, and for the later ones, which slide. After each number it is
about the last ones, as many as a window has or as there are (`TradeSignals.Indicator.recent`), and
what leaves the window is the first of these (`TradeSignals.Indicator.recent_concat`). So the count
is that of the missing ones among them, whatever the arithmetic
(`TradeSignals.Indicator.Rolling.missing_after`).
-/

namespace TradeSignals.Indicator

open Quantity

variable {α β : Type}

/-! ### The last numbers -/

/-- **The last numbers** of the first `count`, as many as a window has. -/
def recent (length : ℕ) (xs : List β) (count : ℕ) : List β := (xs.take count).drop (count - length)

theorem recent_map {γ : Type} (f : β → γ) (length : ℕ) (xs : List β) (count : ℕ) :
    recent length (xs.map f) count = (recent length xs count).map f := by
  rw [recent, recent, ← List.map_take, ← List.map_drop]

/-- While the first window is not full, nothing leaves it. -/
theorem recent_succ_of_lt {length count : ℕ} {xs : List β} (h : count < length) {x : β}
    (hx : xs[count]? = some x) : recent length xs (count + 1) = recent length xs count ++ [x] := by
  rw [recent, recent, Nat.sub_eq_zero_of_le h, Nat.sub_eq_zero_of_le (Nat.le_of_lt h),
    List.drop_zero, List.drop_zero, List.take_add_one, hx]
  rfl

/-- **A full window** takes in a number at its end and loses its first one. -/
theorem recent_concat {length count : ℕ} {xs : List β} (h : length ≤ count) {x old : β}
    (hx : xs[count]? = some x) (hold : xs[count - length]? = some old) :
    recent length xs count ++ [x] = old :: recent length xs (count + 1) := by
  obtain ⟨hcount, -⟩ := List.getElem?_eq_some_iff.1 hx
  have htake : xs.take (count + 1) = xs.take count ++ [x] := by
    rw [List.take_add_one, hx]
    rfl
  have hfirst : (xs.take (count + 1))[count - length]? = some old := by
    rw [List.getElem?_take_of_lt (by omega), hold]
  obtain ⟨hlt, hget⟩ := List.getElem?_eq_some_iff.1 hfirst
  -- Both are what the first numbers are from the oldest one on.
  have hsplit : (xs.take (count + 1)).drop (count - length) =
      old :: recent length xs (count + 1) := by
    rw [List.drop_eq_getElem_cons hlt, hget, recent, Nat.sub_add_comm h]
  rw [← hsplit, htake, recent, List.drop_append_of_le_length]
  rw [List.length_take_of_le (Nat.le_of_lt hcount)]
  exact Nat.sub_le _ _

/-- A full window has as many numbers as a window has. -/
theorem recent_eq_take {length i : ℕ} (h : length ≤ i + 1) (xs : List β) :
    recent length xs (i + 1) = (xs.drop (i + 1 - length)).take length := by
  rw [recent, List.drop_take]
  congr 1
  omega

theorem length_recent_le (length : ℕ) (xs : List β) (count : ℕ) :
    (recent length xs count).length ≤ count := by
  rw [recent, List.length_drop, List.length_take]
  omega

/-- **A study of windows** gives for a bar what it gives for the window that ends with it, once
there is a whole window. -/
theorem getElem?_overWindows [Quantity α] {length : ℕ} (hlength : 0 < length) (value : List β → α)
    {xs : List β} {i : ℕ} (hi : i < xs.length) : (overWindows length value xs)[i]? =
      some (if length ≤ i + 1 then value (recent length xs (i + 1)) else missing) := by
  rw [overWindows]
  split
  next hshort =>
    rw [if_neg (by omega)]
    exact getElem?_gaps hi
  next hlong =>
    rcases Nat.lt_or_ge i (length - 1) with hgap | hwindow
    · rw [if_neg (by omega)]
      exact getElem?_gaps_append _ hgap
    · rw [if_pos (by omega), getElem?_gaps_append_of_le _ hwindow, windows, List.map_map,
        List.getElem?_map, List.getElem?_range (by omega), Option.map_some, Function.comp_apply,
        recent_eq_take (by omega), show i - (length - 1) = i + 1 - length by omega]

/-! ### What is known of the window -/

section Rolling

variable [Quantity α]

/-- **What is known of the window** after so many numbers have come in. -/
def Rolling.after (length : ℕ) (xs : List α) : ℕ → Rolling α
  | 0 => ⟨ofInt 0, 0⟩
  | count + 1 =>
    let w := (after length xs count).enter (xs.getD count Quantity.missing)
    if length ≤ count then w.leave (xs.getD (count - length) Quantity.missing) else w

variable {length count : ℕ} {xs : List α} {x old : α}

theorem Rolling.after_succ_of_lt (h : count < length) (hx : xs[count]? = some x) :
    after length xs (count + 1) = (after length xs count).enter x := by
  rw [after, List.getD_eq_getElem?_getD, hx, Option.getD_some]
  exact if_neg (Nat.not_le_of_lt h)

theorem Rolling.after_succ_of_le (h : length ≤ count) (hx : xs[count]? = some x)
    (hold : xs[count - length]? = some old) :
    after length xs (count + 1) = ((after length xs count).enter x).leave old := by
  rw [after, List.getD_eq_getElem?_getD, hx, Option.getD_some, List.getD_eq_getElem?_getD, hold,
    Option.getD_some]
  exact if_pos h

/-- **The count is that of the missing numbers** among the last ones. -/
theorem Rolling.missing_after (length : ℕ) {xs : List α} {count : ℕ} (h : count ≤ xs.length) :
    (after length xs count).missing = gapCount (recent length xs count) := by
  induction count with
  | zero =>
    rw [recent, List.take_zero, List.drop_nil]
    rfl
  | succ count ih =>
    have hx : xs[count]? = some xs[count] := List.getElem?_eq_getElem h
    have ih := ih (Nat.le_of_lt h)
    rcases Nat.lt_or_ge count length with hlt | hle
    · rw [after_succ_of_lt hlt hx, missing_enter, ih, ← gapCount_append, recent_succ_of_lt hlt hx]
    · have hold : xs[count - length]? = some xs[count - length] :=
        List.getElem?_eq_getElem (by omega)
      rw [after_succ_of_le hle hx hold, missing_leave, missing_enter, ih, ← gapCount_append,
        recent_concat hle hx hold, ← List.singleton_append, gapCount_append,
        Nat.add_sub_cancel_left]

/-- Not more are counted than have come in. -/
theorem Rolling.missing_after_le (length : ℕ) {xs : List α} {count : ℕ} (h : count ≤ xs.length) :
    (after length xs count).missing ≤ count := by
  rw [missing_after length h]
  exact List.countP_le_length.trans (length_recent_le length xs count)

/-- **The count does not fall below zero:** when a missing number leaves the window, it is among
those that are counted. -/
theorem Rolling.missing_pos_of_leaving (h : length ≤ count) (hx : xs[count]? = some x)
    (hold : xs[count - length]? = some old) (hmissing : isMissing old = true) :
    0 < ((after length xs count).enter x).missing := by
  obtain ⟨hcount, -⟩ := List.getElem?_eq_some_iff.1 hx
  rw [missing_enter, missing_after length (Nat.le_of_lt hcount), ← gapCount_append,
    recent_concat h hx hold]
  exact gapCount_pos_of_mem hmissing List.mem_cons_self

/-! ### The windows of the average -/

/-- The first window grows to its length. -/
theorem Rolling.foldl_enter (hcount : count ≤ length) (h : count ≤ xs.length) :
    (xs.take count).foldl enter ⟨ofInt 0, 0⟩ = after length xs count := by
  induction count with
  | zero => rfl
  | succ count ih =>
    have hx : xs[count]? = some xs[count] := List.getElem?_eq_getElem h
    rw [List.take_add_one, hx, List.foldl_append, ih (Nat.le_of_lt hcount) (Nat.le_of_lt h),
      after_succ_of_lt hcount hx]
    rfl

/-- A window that slides on. -/
theorem after_slid {gone : ℕ} (h : length + gone < xs.length) :
    Rolling.after length xs (length + gone + 1) =
      ((Rolling.after length xs (length + gone)).enter xs[length + gone]).leave xs[gone] := by
  refine Rolling.after_succ_of_le (Nat.le_add_right length gone) (List.getElem?_eq_getElem h) ?_
  rw [Nat.add_sub_cancel_left]
  exact List.getElem?_eq_getElem _

/-- From there on it slides. -/
theorem getElem?_slide {gone i : ℕ} (h : length + gone + i < xs.length) :
    (slide (Rolling.after length xs (length + gone)) (xs.drop (length + gone)) (xs.drop gone))[i]? =
      some (Rolling.after length xs (length + gone + i + 1)) := by
  induction i generalizing gone with
  | zero =>
    rw [List.drop_eq_getElem_cons (i := length + gone) (by omega),
      List.drop_eq_getElem_cons (i := gone) (by omega), slide, after_slid (by omega)]
    rfl
  | succ i ih =>
    have hrest : (slide (Rolling.after length xs (length + gone + 1))
        (xs.drop (length + gone + 1)) (xs.drop (gone + 1)))[i]? =
          some (Rolling.after length xs (length + gone + 1 + i + 1)) := @ih (gone + 1) (by omega)
    rw [List.drop_eq_getElem_cons (i := length + gone) (by omega),
      List.drop_eq_getElem_cons (i := gone) (by omega), slide]
    have hin : length + gone < xs.length := by omega
    rw [List.getElem?_cons_succ, ← after_slid hin, hrest]
    congr 2
    omega

/-- **What the average is made of:** the number of a bar is the mean of the window that ends with
it, once there is a whole window. -/
theorem getElem?_sma (hlength : 0 < length) {i : ℕ} (hi : i < xs.length) :
    (sma length xs)[i]? = some (if length ≤ i + 1 then (Rolling.after length xs (i + 1)).mean length
      else missing) := by
  rw [sma]
  split
  next hshort =>
    rw [if_neg (by omega)]
    exact getElem?_gaps hi
  next hlong =>
    dsimp only
    rw [Rolling.foldl_enter le_rfl (by omega)]
    rcases Nat.lt_or_ge i (length - 1) with hgap | hwindow
    · rw [if_neg (by omega)]
      exact getElem?_gaps_append _ hgap
    · rw [if_pos (by omega), getElem?_gaps_append_of_le _ hwindow, List.getElem?_map]
      rcases hk : i - (length - 1) with _ | k
      · rw [show i + 1 = length by omega]
        rfl
      · have hslide : (slide (Rolling.after length xs (length + 0)) (xs.drop (length + 0))
            (xs.drop 0))[k]? = some (Rolling.after length xs (length + 0 + k + 1)) :=
          getElem?_slide (by omega)
        rw [Nat.add_zero, List.drop_zero] at hslide
        rw [List.getElem?_cons_succ, hslide, show length + k + 1 = i + 1 by omega]
        rfl

end Rolling

/-! ### In exact arithmetic -/

section Numbers

variable {K : Type} [OrderedField K] (root : K → K)

/-- The column of numbers of which some may be missing. -/
def exactly (values : List (Option K)) : List (ExactNumber root) := values.map .ofOption

theorem gapCount_exactly (values : List (Option K)) :
    gapCount (exactly root values) = values.countP Option.isNone := by
  rw [gapCount, exactly, List.countP_map]
  refine List.countP_congr fun value _ => ?_
  cases value <;> exact Iff.rfl

/-- As many numbers are counted as are missing among the last ones. -/
theorem Rolling.missing_after_exactly (length : ℕ) {values : List (Option K)} {count : ℕ}
    (h : count ≤ values.length) : (after length (exactly root values) count).missing =
      (recent length values count).countP Option.isNone := by
  rw [missing_after length (by rwa [exactly, List.length_map]), exactly, recent_map, ← exactly,
    gapCount_exactly root]

/-- **The running sum is that of the last numbers,** without those that are missing. -/
theorem Rolling.total_after (length : ℕ) {values : List (Option K)} {count : ℕ}
    (h : count ≤ values.length) :
    (after length (exactly root values) count).total =
      .number (recent length values count).reduceOption.sum := by
  -- What comes in and what goes out is a number or missing, and only a number changes the sum.
  have hentering : ∀ (w : Rolling (ExactNumber root)) (sum : K) (value : Option K),
      w.total = .number sum →
      (w.enter (.ofOption value)).total = .number (sum + [value].reduceOption.sum) := by
    rintro w sum (_ | x) hw
    · exact hw.trans (congrArg ExactNumber.number (add_zero sum).symm)
    · exact (congrArg (· + _) hw).trans (congrArg (fun y => ExactNumber.number (sum + y))
        (add_zero x).symm)
  have hleaving : ∀ (w : Rolling (ExactNumber root)) (sum : K) (value : Option K),
      w.total = .number ([value].reduceOption.sum + sum) →
      (w.leave (.ofOption value)).total = .number sum := by
    rintro w sum (_ | x) hw
    · exact hw.trans (congrArg ExactNumber.number (zero_add sum))
    · refine (congrArg (· - _) hw).trans (congrArg ExactNumber.number ?_)
      rw [List.reduceOption_singleton, Option.toList_some, List.sum_singleton, add_sub_cancel_left]
  induction count with
  | zero =>
    rw [recent, List.take_zero, List.drop_nil]
    exact congrArg ExactNumber.number Int.cast_zero
  | succ count ih =>
    have hvalue : values[count]? = some values[count] := List.getElem?_eq_getElem h
    have hx : (exactly root values)[count]? = some (.ofOption values[count]) := by
      rw [exactly, List.getElem?_map, hvalue, Option.map_some]
    have hentered := hentering _ _ values[count] (ih (Nat.le_of_lt h))
    rw [← List.sum_append, ← List.reduceOption_append] at hentered
    rcases Nat.lt_or_ge count length with hlt | hle
    · rw [after_succ_of_lt hlt hx, hentered, recent_succ_of_lt hlt hvalue]
    · have holdest : values[count - length]? = some values[count - length] :=
        List.getElem?_eq_getElem (by omega)
      have hold : (exactly root values)[count - length]? =
          some (.ofOption values[count - length]) := by
        rw [exactly, List.getElem?_map, holdest, Option.map_some]
      rw [after_succ_of_le hle hx hold]
      refine hleaving _ _ _ (hentered.trans ?_)
      rw [recent_concat hle hvalue holdest, ← List.singleton_append, List.reduceOption_append,
        List.sum_append]

/-- **What the simple moving average gives for a bar,** and what is known of the window then. -/
structure MeanOfWindow (length : ℕ) (values : List (Option K)) (i : ℕ) : Prop where
  /-- It is the mean of the window that ends with the bar, if there is a whole window and nothing
  in it is missing. -/
  number : (sma length (exactly root values))[i]? =
    some (if length ≤ i + 1 ∧ none ∉ recent length values (i + 1) then
      .number ((recent length values (i + 1)).reduceOption.sum / length) else .missing)
  /-- It is made of what is known of the window. -/
  known : (sma length (exactly root values))[i]? =
    some (if length ≤ i + 1 then
      (Rolling.after length (exactly root values) (i + 1)).mean length else .missing)
  /-- As many numbers are counted as are missing among the last ones. -/
  count : (Rolling.after length (exactly root values) (i + 1)).missing =
    (recent length values (i + 1)).countP Option.isNone
  /-- Where a missing number leaves the window, at least one is counted. -/
  leaving : ∀ value, values[i]? = some value → length ≤ i → values[i - length]? = some none →
    0 < ((Rolling.after length (exactly root values) i).enter (.ofOption value)).missing
  /-- What is missing affects the windows that it is in. -/
  affected : ∀ j, values[j]? = some none → j ≤ i → i < j + length →
    (sma length (exactly root values))[i]? = some .missing
  /-- It affects no other ones. -/
  unaffected : ∀ j value, i < j ∨ j + length ≤ i →
    (sma length (exactly root (values.set j value)))[i]? = (sma length (exactly root values))[i]?

/-- What stands in none of the places of a window is not looked at. -/
theorem recent_set {length i j : ℕ} (h : i < j ∨ j + length ≤ i) (values : List β) (value : β) :
    recent length (values.set j value) (i + 1) = recent length values (i + 1) := by
  rw [recent, recent]
  rcases h with h | h
  · rw [List.take_set_of_le h]
  · rw [List.take_set, List.drop_set_of_lt (by omega)]

theorem mem_recent {length i j : ℕ} {values : List β} {value : β}
    (hvalue : values[j]? = some value) (hji : j ≤ i) (hij : i < j + length) :
    value ∈ recent length values (i + 1) := by
  refine List.mem_iff_getElem?.2 ⟨j - (i + 1 - length), ?_⟩
  rw [recent, List.getElem?_drop, Nat.add_sub_cancel' (by omega),
    List.getElem?_take_of_lt (by omega), hvalue]

/-- The mean of a window, in numbers. -/
theorem getElem?_sma_exactly {length : ℕ} (hlength : 0 < length) {values : List (Option K)} {i : ℕ}
    (hi : i < values.length) : (sma length (exactly root values))[i]? =
      some (if length ≤ i + 1 ∧ none ∉ recent length values (i + 1) then
        .number ((recent length values (i + 1)).reduceOption.sum / length) else .missing) := by
  have hsize : (exactly root values).length = values.length := List.length_map _
  rw [getElem?_sma hlength (by rwa [hsize])]
  by_cases hwhole : length ≤ i + 1
  · rw [if_pos hwhole, Rolling.mean, Rolling.missing_after_exactly root length hi,
      Rolling.total_after root length hi]
    by_cases hnone : none ∈ recent length values (i + 1)
    · have hpos : 0 < (recent length values (i + 1)).countP Option.isNone :=
        List.countP_pos_iff.2 ⟨none, hnone, rfl⟩
      rw [if_neg (Nat.ne_of_gt hpos), if_neg fun h => h.2 hnone]
      rfl
    · have hzero : (recent length values (i + 1)).countP Option.isNone = 0 :=
        List.countP_eq_zero.2 fun value hmem hvalue =>
          hnone (Option.isNone_iff_eq_none.1 hvalue ▸ hmem)
      rw [if_pos hzero, if_pos ⟨hwhole, hnone⟩, ExactNumber.ofNat_eq, ExactNumber.number_div]
      exact Nat.cast_ne_zero.2 (Nat.ne_of_gt hlength)
  · rw [if_neg hwhole, if_neg fun h => hwhole h.1]
    rfl

/-- **The simple moving average is the mean of each window,** in exact arithmetic and for any
pattern of missing numbers. -/
theorem sma_eq_mean {length : ℕ} (hlength : 0 < length) (values : List (Option K)) {i : ℕ}
    (hi : i < values.length) : MeanOfWindow root length values i where
  number := getElem?_sma_exactly root hlength hi
  known := getElem?_sma hlength (by rwa [exactly, List.length_map])
  count := Rolling.missing_after_exactly root length hi
  leaving value hvalue hle hold := by
    have hx : (exactly root values)[i]? = some (.ofOption value) := by
      rw [exactly, List.getElem?_map, hvalue, Option.map_some]
    have hmissing : (exactly root values)[i - length]? = some .missing := by
      rw [exactly, List.getElem?_map, hold, Option.map_some, ExactNumber.ofOption]
    exact Rolling.missing_pos_of_leaving hle hx hmissing rfl
  affected j hj hji hij := by
    rw [getElem?_sma_exactly root hlength hi, if_neg fun h => h.2 (mem_recent hj hji hij)]
  unaffected j value h := by
    rw [getElem?_sma_exactly root hlength hi,
      getElem?_sma_exactly root hlength (by rwa [List.length_set]), recent_set h]

/-- A missing number leaves a window of two before the last bar. -/
theorem sma_eq_mean_past_gap :
    0 < 2 ∧ 3 < [some (1 : ℚ), none, some 3, some 5].length ∧
      MeanOfWindow id 2 [some (1 : ℚ), none, some 3, some 5] 3 ∧
      sma 2 (exactly id [some (1 : ℚ), none, some 3, some 5]) =
        [.missing, .missing, .missing, .number 4] :=
  ⟨by decide, by decide, sma_eq_mean id (by decide) _ (by decide), by decide +kernel⟩

end Numbers

end TradeSignals.Indicator
