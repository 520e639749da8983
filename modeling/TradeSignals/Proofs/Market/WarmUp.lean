import TradeSignals.Proofs.Market.SlidingMean
import TradeSignals.Proofs.Market.WilderAverages

/-!
# When an indicator begins to give numbers

In exact arithmetic and with nothing missing in front of it, an indicator gives no number up to some
bar, and a number for every bar from there on (`TradeSignals.Indicator.WarmsUp`). That it is missing
before is how it is defined; that there is a number afterwards says that whatever is computed on the
way can be computed: no divisor is zero, and no square root is taken of a negative number. For a
window this holds because it is not empty, for a recurrence because each step leads from a number to
a number (`TradeSignals.Indicator.isNumber_of_mem_recurrence`).

The exponential average may also be taken of a column that itself begins only later
(`TradeSignals.Indicator.WarmsUp.ema`). It passes over the gap, so that the two gaps add up, less
one bar. This is what makes the signal of two averages begin so late.
-/

namespace TradeSignals

open Quantity

variable {K : Type} {root : K → K} {β : Type}

/-! ### Numbers -/

namespace ExactNumber

/-- Is it a number? -/
def IsNumber (x : ExactNumber root) : Prop := ∃ v, x = .number v

variable {x y : ExactNumber root}

theorem isNumber_number (v : K) : IsNumber (.number v : ExactNumber root) :=
  ⟨v, rfl⟩

/-- What is computed step by step from numbers is a number. -/
theorem isNumber_foldl {op : ExactNumber root → β → ExactNumber root} {xs : List β}
    (hx : IsNumber x) (hop : ∀ x, IsNumber x → ∀ y ∈ xs, IsNumber (op x y)) :
    IsNumber (xs.foldl op x) := by
  induction xs generalizing x with
  | nil => exact hx
  | cons y ys ih =>
    exact ih (hop x hx y List.mem_cons_self) fun x hx z hz => hop x hx z (List.mem_cons_of_mem y hz)

/-- What is computed from numbers side by side are numbers. -/
theorem isNumber_of_mem_zipWith {γ : Type} {op : β → γ → ExactNumber root} {xs : List β}
    {ys : List γ} (hop : ∀ x ∈ xs, ∀ y ∈ ys, IsNumber (op x y)) :
    ∀ z ∈ List.zipWith op xs ys, IsNumber z := by
  intro z hz
  obtain ⟨i, hi⟩ := List.mem_iff_getElem?.1 hz
  obtain ⟨x, y, hx, hy, rfl⟩ := List.getElem?_zipWith_eq_some.1 hi
  exact hop x (List.mem_of_getElem? hx) y (List.mem_of_getElem? hy)

variable [OrderedField K]

theorem isNumber_ofInt (n : ℤ) : IsNumber (ofInt n : ExactNumber root) :=
  ⟨n, rfl⟩

theorem IsNumber.add (hx : IsNumber x) (hy : IsNumber y) : IsNumber (x + y) := by
  obtain ⟨a, rfl⟩ := hx
  obtain ⟨b, rfl⟩ := hy
  exact ⟨a + b, number_add a b⟩

theorem IsNumber.sub (hx : IsNumber x) (hy : IsNumber y) : IsNumber (x - y) := by
  obtain ⟨a, rfl⟩ := hx
  obtain ⟨b, rfl⟩ := hy
  exact ⟨a - b, number_sub a b⟩

theorem IsNumber.mul (hx : IsNumber x) (hy : IsNumber y) : IsNumber (x * y) := by
  obtain ⟨a, rfl⟩ := hx
  obtain ⟨b, rfl⟩ := hy
  exact ⟨a * b, number_mul a b⟩

/-- A quotient is a number if the divisor is not zero. -/
theorem IsNumber.div (hx : IsNumber x) {b : K} (hb : b ≠ 0) : IsNumber (x / .number b) := by
  obtain ⟨a, rfl⟩ := hx
  exact ⟨a / b, number_div a hb⟩

/-- A part of a number, when there is at least one part. -/
theorem IsNumber.div_ofNat (hx : IsNumber x) {n : ℕ} (hn : 0 < n) : IsNumber (x / ofNat n) := by
  rw [ofNat_eq]
  exact hx.div (Nat.cast_ne_zero.2 (Nat.ne_of_gt hn))

theorem IsNumber.abs (hx : IsNumber x) : IsNumber (Quantity.abs x) := by
  obtain ⟨a, rfl⟩ := hx
  exact ⟨|a|, abs_number a⟩

theorem IsNumber.max (hx : IsNumber x) (hy : IsNumber y) : IsNumber (Quantity.max x y) := by
  obtain ⟨a, rfl⟩ := hx
  obtain ⟨b, rfl⟩ := hy
  exact ⟨Max.max a b, max_number a b⟩

theorem IsNumber.min (hx : IsNumber x) (hy : IsNumber y) : IsNumber (Quantity.min x y) := by
  obtain ⟨a, rfl⟩ := hx
  obtain ⟨b, rfl⟩ := hy
  exact ⟨Min.min a b, min_number a b⟩

theorem isNumber_sum {xs : List (ExactNumber root)} (h : ∀ x ∈ xs, IsNumber x) :
    IsNumber (Quantity.sum xs) :=
  isNumber_foldl (isNumber_number 0) fun _ hx y hy => hx.add (h y hy)

/-- The greatest of some numbers: a search that begins below all of them finds one. -/
theorem isNumber_foldl_max {xs : List (ExactNumber root)} (h : ∀ x ∈ xs, IsNumber x)
    (hne : xs ≠ []) : IsNumber (xs.foldl Quantity.max bottom) := by
  obtain ⟨x, xs, rfl⟩ := List.exists_cons_of_ne_nil hne
  obtain ⟨v, rfl⟩ := h x List.mem_cons_self
  have hfirst : Quantity.max bottom (number v : ExactNumber root) = number v := rfl
  rw [List.foldl_cons, hfirst]
  exact isNumber_foldl (isNumber_number v) fun _ hx y hy => hx.max (h y (List.mem_cons_of_mem _ hy))

/-- The least of some numbers. -/
theorem isNumber_foldl_min {xs : List (ExactNumber root)} (h : ∀ x ∈ xs, IsNumber x)
    (hne : xs ≠ []) : IsNumber (xs.foldl Quantity.min top) := by
  obtain ⟨x, xs, rfl⟩ := List.exists_cons_of_ne_nil hne
  obtain ⟨v, rfl⟩ := h x List.mem_cons_self
  have hfirst : Quantity.min top (number v : ExactNumber root) = number v := rfl
  rw [List.foldl_cons, hfirst]
  exact isNumber_foldl (isNumber_number v) fun _ hx y hy => hx.min (h y (List.mem_cons_of_mem _ hy))

end ExactNumber

/-- A bar with other numbers. -/
def Bar.map {α β : Type} (f : α → β) (bar : Bar α) : Bar β :=
  ⟨bar.date, f bar.opening, f bar.high, f bar.low, f bar.close, bar.volume⟩

namespace Indicator

open ExactNumber

/-- **A recurrence leads from numbers to numbers.** -/
theorem isNumber_of_mem_recurrence {step : ExactNumber root → β → ExactNumber root}
    {first : ExactNumber root} {inputs : List β} (hfirst : IsNumber first)
    (hstep : ∀ a, IsNumber a → ∀ x ∈ inputs, IsNumber (step a x)) :
    ∀ y ∈ recurrence step first inputs, IsNumber y := by
  induction inputs generalizing first with
  | nil =>
    intro y hy
    rw [recurrence, List.mem_singleton] at hy
    exact hy ▸ hfirst
  | cons x inputs ih =>
    intro y hy
    rcases List.mem_cons.1 hy with rfl | hy
    · exact hfirst
    · exact ih (hstep first hfirst x List.mem_cons_self)
        (fun a ha z hz => hstep a ha z (List.mem_cons_of_mem x hz)) y hy

/-! ### Columns that begin later -/

/-- **A column that warms up:** up to a bar everything is missing, and from there on there are
numbers. -/
structure WarmsUp (warmUp : ℕ) (column : List (ExactNumber root)) : Prop where
  /-- Nothing is there in the beginning. -/
  missing : ∀ i < warmUp, i < column.length → column[i]? = some .missing
  /-- Later there are numbers. -/
  number : ∀ i, warmUp ≤ i → ∀ x, column[i]? = some x → IsNumber x

/-- A column of which it is known what stands at each place. -/
theorem warmsUp_of_getElem? {warmUp size : ℕ} {column : List (ExactNumber root)}
    (hlength : column.length = size)
    (hmissing : ∀ i < size, i < warmUp → column[i]? = some .missing)
    (hnumber : ∀ i < size, warmUp ≤ i → ∃ x, column[i]? = some x ∧ IsNumber x) :
    WarmsUp warmUp column where
  missing i hi hlt := hmissing i (hlength ▸ hlt) hi
  number i hle x hx := by
    obtain ⟨hlt, -⟩ := List.getElem?_eq_some_iff.1 hx
    obtain ⟨y, hy, hnumber⟩ := hnumber i (hlength ▸ hlt) hle
    obtain rfl := Option.some.inj (hx.symm.trans hy)
    exact hnumber

/-- A column of numbers. -/
theorem warmsUp_of_numbers {column : List (ExactNumber root)} (h : ∀ x ∈ column, IsNumber x) :
    WarmsUp 0 column where
  missing _ hi _ := absurd hi (Nat.not_lt_zero _)
  number _ _ x hx := h x (List.mem_of_getElem? hx)

variable [OrderedField K]

section Columns

variable {warmUp other : ℕ} {column column' : List (ExactNumber root)}

/-- A column that ends before it has warmed up. -/
theorem warmsUp_gaps {size : ℕ} (h : size ≤ warmUp) :
    WarmsUp warmUp (gaps size : List (ExactNumber root)) where
  missing i _ hi := by
    rw [length_gaps] at hi
    exact getElem?_gaps hi
  number i hle x hx := by
    obtain ⟨hi, -⟩ := List.getElem?_eq_some_iff.1 hx
    rw [length_gaps] at hi
    omega

/-- **Numbers after a gap.** -/
theorem warmsUp_gaps_append (h : ∀ x ∈ column, IsNumber x) :
    WarmsUp warmUp (gaps warmUp ++ column) where
  missing i hi _ := getElem?_gaps_append column hi
  number i hle x hx := by
    rw [getElem?_gaps_append_of_le column hle] at hx
    exact h x (List.mem_of_getElem? hx)

/-- The distance of two columns begins with the later of the two. -/
theorem WarmsUp.zipWith_sub (h : WarmsUp warmUp column) (h' : WarmsUp other column')
    (hlength : column.length = column'.length) :
    WarmsUp (max warmUp other) (List.zipWith (· - ·) column column') where
  missing i hi hlt := by
    rw [List.length_zipWith] at hlt
    have hx : column[i]? = some column[i] := List.getElem?_eq_getElem (by omega)
    have hy : column'[i]? = some column'[i] := List.getElem?_eq_getElem (by omega)
    rw [List.getElem?_zipWith, hx, hy]
    refine congrArg some ?_
    rcases lt_max_iff.1 hi with hi | hi
    · have hmissing : column[i] = .missing := Option.some.inj (hx ▸ h.missing i hi (by omega))
      rw [hmissing]
      exact Absorbing.missing_sub _
    · have hmissing : column'[i] = .missing := Option.some.inj (hy ▸ h'.missing i hi (by omega))
      rw [hmissing]
      exact Absorbing.sub_missing _
  number i hle z hz := by
    obtain ⟨x, y, hx, hy, rfl⟩ := List.getElem?_zipWith_eq_some.1 hz
    exact (h.number i (le_of_max_le_left hle) x hx).sub (h'.number i (le_of_max_le_right hle) y hy)

/-- The gap in front of a column that warms up. -/
theorem WarmsUp.leadingGaps (h : WarmsUp warmUp column) :
    leadingGaps column = min warmUp column.length := by
  induction column generalizing warmUp with
  | nil => rw [List.length_nil, Nat.min_zero]; rfl
  | cons x column ih =>
    rcases warmUp with _ | warmUp
    · obtain ⟨v, rfl⟩ := h.number 0 le_rfl x rfl
      rw [Nat.zero_min]
      rfl
    · have hx : x = .missing := Option.some.inj (h.missing 0 (Nat.succ_pos _) (Nat.succ_pos _))
      have hrest : WarmsUp warmUp column :=
        ⟨fun i hi hlt => h.missing (i + 1) (Nat.succ_lt_succ hi) (Nat.succ_lt_succ hlt),
          fun i hle => h.number (i + 1) (Nat.succ_le_succ hle)⟩
      rw [hx, List.length_cons, Nat.succ_min_succ, ← ih hrest]
      rfl

end Columns

/-! ### Windows -/

section Windows

variable {length : ℕ}

/-- **A study of windows** gives a number for each whole window, if it does so for all windows that
are not empty. -/
theorem warmsUp_overWindows {γ : Type} {f : γ → β} {value : List β → ExactNumber root}
    (hlength : 0 < length)
    (hvalue : ∀ window : List γ, window ≠ [] → IsNumber (value (window.map f))) (xs : List γ) :
    WarmsUp (length - 1) (overWindows length value (xs.map f)) := by
  have hsize : (xs.map f).length = xs.length := List.length_map _
  refine warmsUp_of_getElem? ((causal_overWindows length value).length_eq _) (fun i hi hgap => ?_)
    fun i hi hle => ?_
  · rw [getElem?_overWindows hlength value hi, if_neg (by omega)]
    rfl
  · have hwindow : recent length xs (i + 1) ≠ [] := by
      refine List.ne_nil_of_length_pos ?_
      rw [recent, List.length_drop, List.length_take]
      omega
    rw [getElem?_overWindows hlength value hi, if_pos (by omega), recent_map]
    exact ⟨_, rfl, hvalue _ hwindow⟩

variable {window : List K}

/-- The mean of a window. -/
theorem mean_number (h : window ≠ []) :
    mean (window.map (number : K → ExactNumber root)) = .number (window.sum / window.length) := by
  have hne : (window.length : K) ≠ 0 :=
    Nat.cast_ne_zero.2 (Nat.ne_of_gt (List.length_pos_of_ne_nil h))
  rw [mean, sum_number, List.length_map, ofNat_eq, number_div _ hne]

/-- **The standard deviation of a window** is the root of what is not negative. -/
theorem deviation_number (h : window ≠ []) :
    let middle := window.sum / window.length
    let squares := window.map fun x => (x - middle) * (x - middle)
    deviation (window.map (number : K → ExactNumber root)) =
      .number (root (squares.sum / window.length)) := by
  intro middle squares
  have hne : (window.length : K) ≠ 0 :=
    Nat.cast_ne_zero.2 (Nat.ne_of_gt (List.length_pos_of_ne_nil h))
  have hnonneg : 0 ≤ squares.sum / window.length := by
    refine div_nonneg (List.sum_nonneg fun y hy => ?_) (Nat.cast_nonneg _)
    obtain ⟨x, -, rfl⟩ := List.mem_map.1 hy
    exact mul_self_nonneg _
  have hsquares : (window.map (number : K → ExactNumber root)).map
      (fun x => (x - .number middle) * (x - .number middle)) = squares.map .number := by
    rw [List.map_map, List.map_map]
    rfl
  rw [deviation, mean_number h]
  rw [hsquares, sum_number, List.length_map, ofNat_eq, number_div _ hne, sqrt_number hnonneg]

/-- The sum of a window with its weights. -/
theorem isNumber_sum_weighted (window : List K) :
    IsNumber (Quantity.sum (weighted (window.map (number : K → ExactNumber root)))) := by
  refine isNumber_sum fun x hx => ?_
  obtain ⟨i, hi, rfl⟩ := List.mem_mapIdx.1 hx
  rw [List.getElem_map, ofNat_eq]
  exact (isNumber_number _).mul (isNumber_number _)

/-- The sum of the weights is not zero. -/
theorem sum_weights_ne_zero (hlength : 0 < length) :
    (length : K) * (length + 1) / 2 ≠ 0 := by
  have hpos : (0 : K) < length := Nat.cast_pos.2 hlength
  positivity

theorem warmsUp_wma (hlength : 0 < length) (xs : List K) :
    WarmsUp (length - 1) (wma length (xs.map (number : K → ExactNumber root))) := by
  refine warmsUp_overWindows hlength (fun window _ => ?_) xs
  rw [ofNat_eq, ofInt_one, ofInt_ofNat, number_add, number_mul,
    number_div _ (OfNat.ofNat_ne_zero 2)]
  exact (isNumber_sum_weighted window).div (sum_weights_ne_zero hlength)

theorem warmsUp_stddev (hlength : 0 < length) (xs : List K) :
    WarmsUp (length - 1) (stddev length (xs.map (number : K → ExactNumber root))) :=
  warmsUp_overWindows hlength (fun _ h => ⟨_, deviation_number h⟩) xs

theorem warmsUp_middleBand (hlength : 0 < length) (xs : List K) :
    WarmsUp (length - 1) (middleBand length (xs.map (number : K → ExactNumber root))) :=
  warmsUp_overWindows hlength (fun _ h => ⟨_, mean_number h⟩) xs

theorem warmsUp_upperBand (hlength : 0 < length) (deviations : K) (xs : List K) :
    WarmsUp (length - 1) (upperBand length (.number deviations)
      (xs.map (number : K → ExactNumber root))) := by
  refine warmsUp_overWindows hlength (fun window h => ?_) xs
  rw [mean_number h, deviation_number h]
  exact ⟨_, rfl⟩

theorem warmsUp_lowerBand (hlength : 0 < length) (deviations : K) (xs : List K) :
    WarmsUp (length - 1) (lowerBand length (.number deviations)
      (xs.map (number : K → ExactNumber root))) := by
  refine warmsUp_overWindows hlength (fun window h => ?_) xs
  rw [mean_number h, deviation_number h]
  exact ⟨_, rfl⟩

theorem warmsUp_retracement (hlength : 0 < length) (level : Retracement) (bars : List (Bar K)) :
    WarmsUp (length - 1) (retracement level length
      (bars.map (Bar.map (number : K → ExactNumber root)))) := by
  refine warmsUp_overWindows hlength (fun window h => ?_) bars
  have hhigh : IsNumber (((window.map (Bar.map (number : K → ExactNumber root))).map (·.high)).foldl
      Quantity.max bottom) := by
    refine isNumber_foldl_max (fun x hx => ?_) (by simpa using h)
    obtain ⟨bar, -, rfl⟩ := List.mem_map.1 (List.map_map ▸ hx)
    exact ⟨bar.high, rfl⟩
  have hlow : IsNumber (((window.map (Bar.map (number : K → ExactNumber root))).map (·.low)).foldl
      Quantity.min top) := by
    refine isNumber_foldl_min (fun x hx => ?_) (by simpa using h)
    obtain ⟨bar, -, rfl⟩ := List.mem_map.1 (List.map_map ▸ hx)
    exact ⟨bar.low, rfl⟩
  have hratio : IsNumber (ratio level : ExactNumber root) := by
    rw [ratio, ofInt_ofNat]
    exact (isNumber_ofInt _).div (OfNat.ofNat_ne_zero 1000)
  exact hhigh.sub ((hhigh.sub hlow).mul hratio)

end Windows

/-! ### Averages -/

section Averages

variable {length : ℕ}

theorem warmsUp_sma (hlength : 0 < length) (xs : List K) :
    WarmsUp (length - 1) (sma length (xs.map (number : K → ExactNumber root))) := by
  have hexactly : xs.map (number : K → ExactNumber root) = exactly root (xs.map some) := by
    rw [exactly, List.map_map]
    rfl
  have hnone : ∀ i, none ∉ recent length (xs.map some) i := by
    intro i
    rw [recent_map]
    simp
  rw [hexactly]
  refine warmsUp_of_getElem? (((causal_sma length).length_eq _).trans (List.length_map _))
    (fun i hi hgap => ?_) fun i hi hle => ?_
  · rw [getElem?_sma_exactly root hlength hi, if_neg (by omega)]
  · rw [getElem?_sma_exactly root hlength hi, if_pos ⟨by omega, hnone _⟩]
    exact ⟨_, rfl, isNumber_number _⟩

theorem isNumber_emaWeight (length : ℕ) : IsNumber (emaWeight length : ExactNumber root) := by
  have hne : (length : K) + 1 ≠ 0 := by positivity
  rw [emaWeight, ofNat_eq, ofInt_one, number_add]
  exact (isNumber_ofInt 2).div hne

/-- **The exponential average of a column that warms up** begins with the first whole window of
numbers. -/
theorem WarmsUp.ema {warmUp : ℕ} {column : List (ExactNumber root)} (h : WarmsUp warmUp column)
    (hlength : 0 < length) : WarmsUp (warmUp + length - 1) (ema length column) := by
  have hgap := h.leadingGaps
  rw [Indicator.ema]
  dsimp only
  split
  next hshort => exact warmsUp_gaps (by omega)
  next hlong =>
    obtain hstart : Indicator.leadingGaps column = warmUp := by omega
    have hnumbers : ∀ x ∈ column.drop warmUp, IsNumber x := by
      intro x hx
      obtain ⟨i, hi⟩ := List.mem_iff_getElem?.1 hx
      rw [List.getElem?_drop] at hi
      exact h.number (warmUp + i) (Nat.le_add_right _ _) x hi
    rw [hstart]
    refine warmsUp_gaps_append (isNumber_of_mem_recurrence ?_ fun average ha x hx => ?_)
    · exact (isNumber_sum fun x hx => hnumbers x (List.mem_of_mem_take hx)).div_ofNat hlength
    · have hweight : IsNumber (emaWeight length : ExactNumber root) := isNumber_emaWeight length
      exact ((hnumbers x (List.mem_of_mem_drop hx)).mul hweight).add
        (ha.mul ((isNumber_ofInt 1).sub hweight))

theorem warmsUp_ema (hlength : 0 < length) (xs : List K) :
    WarmsUp (length - 1) (ema length (xs.map (number : K → ExactNumber root))) := by
  have hcolumn : WarmsUp 0 (xs.map (number : K → ExactNumber root)) := by
    refine warmsUp_of_numbers fun x hx => ?_
    obtain ⟨v, -, rfl⟩ := List.mem_map.1 hx
    exact isNumber_number v
  have hema := hcolumn.ema hlength
  rwa [Nat.zero_add] at hema

variable {fast slow signal : ℕ}

/-- **The distance of two averages** begins with the later of the two. -/
theorem warmsUp_macdLine (hfast : 0 < fast) (hslow : 0 < slow) (xs : List K) :
    WarmsUp (max fast slow - 1) (macdLine fast slow (xs.map (number : K → ExactNumber root))) := by
  have hlater : max (fast - 1) (slow - 1) = max fast slow - 1 := by omega
  rw [← hlater]
  exact (warmsUp_ema hfast xs).zipWith_sub (warmsUp_ema hslow xs)
    (((causal_ema fast).length_eq _).trans ((causal_ema slow).length_eq _).symm)

theorem warmsUp_macdSignal (hfast : 0 < fast) (hslow : 0 < slow) (hsignal : 0 < signal)
    (xs : List K) : WarmsUp (max fast slow + signal - 2)
      (macdSignal fast slow signal (xs.map (number : K → ExactNumber root))) := by
  have hgaps : max fast slow - 1 + signal - 1 = max fast slow + signal - 2 := by omega
  rw [← hgaps]
  exact (warmsUp_macdLine hfast hslow xs).ema hsignal

theorem warmsUp_macdHistogram (hfast : 0 < fast) (hslow : 0 < slow) (hsignal : 0 < signal)
    (xs : List K) : WarmsUp (max fast slow + signal - 2)
      (macdHistogram fast slow signal (xs.map (number : K → ExactNumber root))) := by
  have hlater : max (max fast slow - 1) (max fast slow + signal - 2) =
      max fast slow + signal - 2 := by omega
  rw [← hlater]
  exact (warmsUp_macdLine hfast hslow xs).zipWith_sub (warmsUp_macdSignal hfast hslow hsignal xs)
    (((causal_macdLine fast slow).length_eq _).trans
      ((causal_macdSignal fast slow signal).length_eq _).symm)

end Averages

/-! ### Change -/

section Change

variable {length : ℕ}

theorem warmsUp_rsi (hlength : 0 < length) (xs : List K) :
    WarmsUp length (rsi length (xs.map (number : K → ExactNumber root))) := by
  refine warmsUp_of_getElem? (((causal_rsi length).length_eq _).trans (List.length_map _))
    (fun i hi hgap => ?_) fun i hi hle => ?_
  · rw [rsi]
    split
    next => exact getElem?_gaps (by rwa [List.length_map])
    next => exact getElem?_gaps_append _ hgap
  · exact ⟨_, getElem?_rsi hlength hle hi, isNumber_number _⟩

/-- A change in percent is a number, since one from zero is taken for none. -/
theorem isNumber_percentChange (x old : K) :
    IsNumber (percentChange (.number x) (.number old) : ExactNumber root) := by
  rw [percentChange, isZero_number]
  split
  next => exact isNumber_ofInt 0
  next hne =>
    exact (((isNumber_number x).sub (isNumber_number old)).div (mt decide_eq_true hne)).mul
      (isNumber_ofInt 100)

theorem warmsUp_roc (hlength : 0 < length) (xs : List K) :
    WarmsUp length (roc length (xs.map (number : K → ExactNumber root))) := by
  rw [roc]
  split
  next hshort => exact warmsUp_gaps (by omega)
  next =>
    refine warmsUp_gaps_append (isNumber_of_mem_zipWith fun x hx old hold => ?_)
    obtain ⟨v, -, rfl⟩ := List.mem_map.1 (List.mem_of_mem_drop hx)
    obtain ⟨w, -, rfl⟩ := List.mem_map.1 hold
    exact isNumber_percentChange v w

end Change

/-! ### Studies of whole bars -/

section Bars

/-- A range is the greatest of three numbers. -/
theorem isNumber_trueRange (bar : Bar K) (old : K) :
    IsNumber ((bar.map (number : K → ExactNumber root)).trueRange (.number old)) := by
  have hhigh : IsNumber (.number bar.high : ExactNumber root) := isNumber_number _
  have hlow : IsNumber (.number bar.low : ExactNumber root) := isNumber_number _
  have hold : IsNumber (.number old : ExactNumber root) := isNumber_number _
  exact ((hhigh.sub hlow).max (hhigh.sub hold).abs).max (hlow.sub hold).abs

theorem isNumber_of_mem_trueRanges (bars : List (Bar K)) :
    ∀ x ∈ trueRanges (bars.map (Bar.map (number : K → ExactNumber root))), IsNumber x := by
  rcases bars with _ | ⟨first, rest⟩
  · exact fun x hx => absurd hx List.not_mem_nil
  · intro x hx
    rcases List.mem_cons.1 hx with rfl | hx
    · exact (isNumber_number first.high).sub (isNumber_number first.low)
    · refine isNumber_of_mem_zipWith (fun bar hbar old hold => ?_) x hx
      obtain ⟨bar, -, rfl⟩ := List.mem_map.1 hbar
      rw [← List.map_cons] at hold
      obtain ⟨old, -, rfl⟩ := List.mem_map.1 hold
      exact isNumber_trueRange bar old.close

theorem warmsUp_atr {length : ℕ} (hlength : 0 < length) (bars : List (Bar K)) :
    WarmsUp (length - 1) (atr length (bars.map (Bar.map (number : K → ExactNumber root)))) := by
  have hranges : ∀ x ∈ trueRanges (bars.map (Bar.map (number : K → ExactNumber root))),
      IsNumber x := isNumber_of_mem_trueRanges bars
  rw [atr]
  split
  next hshort => exact warmsUp_gaps (by omega)
  next =>
    refine warmsUp_gaps_append (isNumber_of_mem_recurrence ?_ fun average ha x hx => ?_)
    · exact (isNumber_sum fun x hx => hranges x (List.mem_of_mem_take hx)).div_ofNat hlength
    · exact ((ha.mul (isNumber_ofInt _)).add (hranges x (List.mem_of_mem_drop hx))).div_ofNat
        hlength

/-- **The on-balance volume** begins at once. -/
theorem warmsUp_obv (bars : List (Bar K)) :
    WarmsUp 0 (obv (bars.map (Bar.map (number : K → ExactNumber root)))) := by
  refine warmsUp_of_numbers ?_
  rcases bars with _ | ⟨first, rest⟩
  · exact fun x hx => absurd hx List.not_mem_nil
  · refine isNumber_of_mem_recurrence (isNumber_ofInt _) fun total ha step _ => ?_
    obtain ⟨bar, old⟩ := step
    have hvolume : IsNumber bar.volumeQuantity := isNumber_ofInt _
    rw [addVolume]
    split_ifs
    · exact ha.add hvolume
    · exact ha.sub hvolume
    · exact ha

end Bars

end Indicator

end TradeSignals
