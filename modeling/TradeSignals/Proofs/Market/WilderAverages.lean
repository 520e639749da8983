import Mathlib.Algebra.Order.BigOperators.Group.List
import TradeSignals.Proofs.Market.ExactNumbers

/-!
# Wilder's averages and the relative strength index

The relative strength index is made of two averages, of what was gained and of what was lost from
one number to the next. Both begin with the mean of the first window of changes and then take each
change in with the weight of one place in a window (`TradeSignals.Indicator.wilder`). There is one
change less than there are numbers, so what is known of the changes up to one place is written down
at the next.

Gains and losses are not negative, so the averages are not, either
(`TradeSignals.Indicator.wilder_nonneg`), and that is what bounds the index: with no loss on average
it is a hundred, and otherwise it is a hundred less a part of it that is never zero. In exact
arithmetic these are strict comparisons, and so the two ends of the range tell exactly when one of
the averages is zero (`TradeSignals.Indicator.rsi_eq_wilder`).
-/

namespace TradeSignals.Indicator

open Quantity

variable {K : Type} [OrderedField K]

/-! ### In numbers -/

/-- What was gained from each number to the next. -/
def gains (values : List K) : List K :=
  List.zipWith (fun x old => Max.max (x - old) 0) values.tail values

/-- What was lost from each number to the next. -/
def losses (values : List K) : List K :=
  List.zipWith (fun x old => Max.max (old - x) 0) values.tail values

/-- **Wilder's average** of steps: first the mean of a window, and then what it was with one place
of the window given to the next step. -/
def wilder (length : ℕ) (steps : List K) : ℕ → K
  | 0 => (steps.take length).sum / length
  | k + 1 => (wilder length steps k * (length - 1) + steps.getD (length + k) 0) / length

/-- The relative strength index of two averages. -/
def relativeStrength (gain loss : K) : K :=
  if loss = 0 then 100 else 100 - 100 / (1 + gain / loss)

theorem length_gains (values : List K) : (gains values).length = values.length - 1 := by
  rw [gains, List.length_zipWith, List.length_tail, Nat.min_eq_left (Nat.sub_le _ _)]

theorem length_losses (values : List K) : (losses values).length = values.length - 1 := by
  rw [losses, List.length_zipWith, List.length_tail, Nat.min_eq_left (Nat.sub_le _ _)]

theorem nonneg_of_mem_zipWith_max {op : K → K → K} {xs ys : List K} {x : K}
    (h : x ∈ List.zipWith (fun a b => Max.max (op a b) 0) xs ys) : 0 ≤ x := by
  obtain ⟨i, hi, rfl⟩ := List.mem_iff_getElem.1 h
  rw [List.getElem_zipWith]
  exact le_max_right _ _

/-- **Averages of what is not negative are not negative.** -/
theorem wilder_nonneg {length : ℕ} (hlength : 0 < length) {steps : List K}
    (h : ∀ x ∈ steps, 0 ≤ x) (k : ℕ) : 0 ≤ wilder length steps k := by
  have hpos : (0 : K) ≤ length := Nat.cast_nonneg length
  induction k with
  | zero => exact div_nonneg (List.sum_nonneg fun x hx => h x (List.mem_of_mem_take hx)) hpos
  | succ k ih =>
    have hrest : (0 : K) ≤ length - 1 := sub_nonneg.2 (Nat.one_le_cast.2 hlength)
    have hstep : 0 ≤ steps.getD (length + k) 0 := by
      rw [List.getD_eq_getElem?_getD]
      rcases hget : steps[length + k]? with _ | x
      · exact le_rfl
      · exact h x (List.mem_of_getElem? hget)
    exact div_nonneg (add_nonneg (mul_nonneg ih hrest) hstep) hpos

section Strength

variable {gain loss : K}

/-- The divisor is never zero. -/
theorem one_add_div_pos (hgain : 0 ≤ gain) (hloss : 0 ≤ loss) : 0 < 1 + gain / loss :=
  add_pos_of_pos_of_nonneg one_pos (div_nonneg hgain hloss)

/-- **The index lies between zero and a hundred.** -/
theorem relativeStrength_mem (hgain : 0 ≤ gain) (hloss : 0 ≤ loss) :
    0 ≤ relativeStrength gain loss ∧ relativeStrength gain loss ≤ 100 := by
  rw [relativeStrength]
  split
  next => exact ⟨by norm_num, le_rfl⟩
  next =>
    have hpos := one_add_div_pos hgain hloss
    have hpart : 100 / (1 + gain / loss) ≤ 100 :=
      div_le_self (by norm_num) (le_add_of_nonneg_right (div_nonneg hgain hloss))
    exact ⟨sub_nonneg.2 hpart, sub_le_self _ (div_nonneg (by norm_num) (le_of_lt hpos))⟩

/-- It is a hundred if nothing is lost on average. -/
theorem relativeStrength_eq_hundred_iff (hgain : 0 ≤ gain) (hloss : 0 ≤ loss) :
    relativeStrength gain loss = 100 ↔ loss = 0 := by
  rw [relativeStrength]
  split
  next hzero => exact ⟨fun _ => hzero, fun _ => rfl⟩
  next hzero =>
    have hpart : 0 < 100 / (1 + gain / loss) :=
      div_pos (by norm_num) (one_add_div_pos hgain hloss)
    exact ⟨fun h => absurd (sub_eq_self.1 h) (ne_of_gt hpart), fun h => absurd h hzero⟩

/-- It is zero if something is lost on average and nothing gained. -/
theorem relativeStrength_eq_zero_iff (hgain : 0 ≤ gain) (hloss : 0 ≤ loss) :
    relativeStrength gain loss = 0 ↔ gain = 0 ∧ loss ≠ 0 := by
  rw [relativeStrength]
  split
  next hzero => exact ⟨fun h => absurd h (by norm_num), fun h => absurd hzero h.2⟩
  next hzero =>
    have hpos := one_add_div_pos hgain hloss
    rw [sub_eq_zero, eq_div_iff (ne_of_gt hpos), mul_eq_left₀ (by norm_num), add_eq_left,
      div_eq_zero_iff, or_iff_left hzero]
    exact ⟨fun h => ⟨h, hzero⟩, fun h => h.1⟩

end Strength

/-! ### What the program computes -/

section Numbers

variable {root : K → K}

theorem changes_number (values : List K) :
    changes (values.map (ExactNumber.number : K → ExactNumber root)) =
      (List.zipWith (fun x old => x - old) values.tail values).map .number := by
  rw [changes, ← List.map_tail, List.zipWith_map, List.map_zipWith]
  rfl

theorem gain_number (change : K) :
    gain (.number change : ExactNumber root) = .number (Max.max change 0) := by
  rw [gain, ExactNumber.ofInt_zero, ExactNumber.lt_number]
  split
  next h => rw [max_eq_left (le_of_lt (of_decide_eq_true h))]
  next h => rw [max_eq_right (not_lt.1 fun hlt => h (decide_eq_true hlt))]

theorem loss_number (change : K) :
    loss (.number change : ExactNumber root) = .number (Max.max (-change) 0) := by
  rw [loss, ExactNumber.ofInt_zero, ExactNumber.lt_number, ExactNumber.neg_number]
  split
  next h => rw [max_eq_left (neg_nonneg.2 (le_of_lt (of_decide_eq_true h)))]
  next h => rw [max_eq_right (neg_nonpos.2 (not_lt.1 fun hlt => h (decide_eq_true hlt)))]

theorem map_gain_changes (values : List K) :
    (changes (values.map (ExactNumber.number : K → ExactNumber root))).map gain =
      (gains values).map .number := by
  rw [changes_number, List.map_map, gains, List.map_zipWith, List.map_zipWith]
  congr 1
  funext x old
  exact gain_number (x - old)

theorem map_loss_changes (values : List K) :
    (changes (values.map (ExactNumber.number : K → ExactNumber root))).map loss =
      (losses values).map .number := by
  rw [changes_number, List.map_map, losses, List.map_zipWith, List.map_zipWith]
  congr 1
  funext x old
  exact (loss_number (x - old)).trans (by rw [neg_sub])

/-- **The averages of the program are Wilder's.** -/
theorem getElem?_smoothed {length : ℕ} (hlength : 0 < length) {steps : List K} {k : ℕ}
    (h : length + k ≤ steps.length) :
    (smoothed length (steps.map (ExactNumber.number : K → ExactNumber root)))[k]? =
      some (.number (wilder length steps k)) := by
  have hne : (length : K) ≠ 0 := Nat.cast_ne_zero.2 (Nat.ne_of_gt hlength)
  induction k with
  | zero =>
    rw [smoothed, getElem?_recurrence_zero, ← List.map_take, ExactNumber.sum_number,
      ExactNumber.ofNat_eq,
      ExactNumber.number_div _ hne, wilder]
  | succ k ih =>
    have hstep : steps[length + k]? = some steps[length + k] := List.getElem?_eq_getElem h
    have hnext : ((steps.map (ExactNumber.number : K → ExactNumber root)).drop length)[k]? =
        some (.number steps[length + k]) := by
      rw [List.getElem?_drop, List.getElem?_map, hstep, Option.map_some]
    rw [smoothed] at ih ⊢
    rw [getElem?_recurrence_succ _ hnext, ih (Nat.le_of_succ_le h), Option.map_some,
      ExactNumber.ofNat_eq, ExactNumber.ofNat_eq, ExactNumber.number_mul, ExactNumber.number_add,
      ExactNumber.number_div _ hne, wilder, List.getD_eq_getElem?_getD, hstep, Option.getD_some,
      Nat.cast_pred hlength]

theorem strength_number {gain loss : K} (hgain : 0 ≤ gain) (hloss : 0 ≤ loss) :
    strength (.number gain : ExactNumber root) (.number loss) =
      .number (relativeStrength gain loss) := by
  rw [strength, relativeStrength, ExactNumber.isZero_number, ExactNumber.ofInt_ofNat,
    ExactNumber.ofInt_one]
  by_cases hzero : loss = 0
  · rw [if_pos (decide_eq_true hzero), if_pos hzero]
  · rw [if_neg (fun h => hzero (of_decide_eq_true h)), if_neg hzero, ExactNumber.number_div _ hzero,
      ExactNumber.number_add, ExactNumber.number_div _ (ne_of_gt (one_add_div_pos hgain hloss)),
      ExactNumber.number_sub]

/-- The number of the index that belongs to a bar is made of the averages one place before it. -/
theorem getElem?_rsi {length : ℕ} (hlength : 0 < length) {values : List K} {i : ℕ}
    (hle : length ≤ i) (hi : i < values.length) :
    (rsi length (values.map (ExactNumber.number : K → ExactNumber root)))[i]? =
      some (.number (relativeStrength (wilder length (gains values) (i - length))
        (wilder length (losses values) (i - length)))) := by
  have hgains := length_gains values
  have hlosses := length_losses values
  have hnonneg : ∀ x ∈ gains values, 0 ≤ x := fun x => nonneg_of_mem_zipWith_max
  have hnonneg' : ∀ x ∈ losses values, 0 ≤ x := fun x => nonneg_of_mem_zipWith_max
  rw [rsi, List.length_map, if_neg (by omega)]
  dsimp only
  rw [getElem?_gaps_append_of_le _ hle, List.getElem?_zipWith, map_gain_changes, map_loss_changes,
    getElem?_smoothed hlength (by omega), getElem?_smoothed hlength (by omega)]
  exact congrArg some (strength_number (wilder_nonneg hlength hnonneg _)
    (wilder_nonneg hlength hnonneg' _))

variable (root)

/-- **The relative strength index of a bar:** the averages that it is made of, and where it lies. -/
structure StrengthAt (length : ℕ) (values : List K) (i : ℕ) (gain loss index : K) : Prop where
  /-- What the program gained on average. -/
  averageGain : (smoothed length
    ((changes (values.map (ExactNumber.number : K → ExactNumber root))).map
      Indicator.gain))[i - length]? = some (.number gain)
  /-- What it lost on average. -/
  averageLoss : (smoothed length
    ((changes (values.map (ExactNumber.number : K → ExactNumber root))).map
      Indicator.loss))[i - length]? = some (.number loss)
  /-- It is Wilder's average of the gains. -/
  gain_eq : gain = wilder length (gains values) (i - length)
  /-- It is Wilder's average of the losses. -/
  loss_eq : loss = wilder length (losses values) (i - length)
  /-- Nothing less than nothing is gained. -/
  gain_nonneg : 0 ≤ gain
  /-- Nothing less than nothing is lost. -/
  loss_nonneg : 0 ≤ loss
  /-- The averages are quotients by what is not zero. -/
  length_ne_zero : (length : K) ≠ 0
  /-- So is the index, if it is not made of a loss of zero. -/
  divisor_ne_zero : loss ≠ 0 → 1 + gain / loss ≠ 0
  /-- The number of the bar. -/
  number : (rsi length (values.map (ExactNumber.number : K → ExactNumber root)))[i]? =
    some (.number index)
  /-- It is not less than zero. -/
  nonneg : 0 ≤ index
  /-- It is not more than a hundred. -/
  le_hundred : index ≤ 100
  /-- It is a hundred if nothing was lost on average. -/
  eq_hundred_iff : index = 100 ↔ loss = 0
  /-- It is zero if something was lost on average and nothing gained. -/
  eq_zero_iff : index = 0 ↔ gain = 0 ∧ loss ≠ 0

/-- **The relative strength index is made of Wilder's averages,** and stays in its range. -/
theorem rsi_eq_wilder {length : ℕ} (hlength : 0 < length) (values : List K) {i : ℕ}
    (hle : length ≤ i) (hi : i < values.length) :
    ∃ gain loss index, StrengthAt root length values i gain loss index := by
  have hgains := length_gains values
  have hlosses := length_losses values
  have hgain : 0 ≤ wilder length (gains values) (i - length) :=
    wilder_nonneg hlength (fun x => nonneg_of_mem_zipWith_max) _
  have hloss : 0 ≤ wilder length (losses values) (i - length) :=
    wilder_nonneg hlength (fun x => nonneg_of_mem_zipWith_max) _
  obtain ⟨hnonneg, hhundred⟩ := relativeStrength_mem hgain hloss
  exact ⟨_, _, _,
    { averageGain := by rw [map_gain_changes, getElem?_smoothed hlength (by omega)]
      averageLoss := by rw [map_loss_changes, getElem?_smoothed hlength (by omega)]
      gain_eq := rfl
      loss_eq := rfl
      gain_nonneg := hgain
      loss_nonneg := hloss
      length_ne_zero := Nat.cast_ne_zero.2 (Nat.ne_of_gt hlength)
      divisor_ne_zero := fun _ => ne_of_gt (one_add_div_pos hgain hloss)
      number := getElem?_rsi hlength hle hi
      nonneg := hnonneg
      le_hundred := hhundred
      eq_hundred_iff := relativeStrength_eq_hundred_iff hgain hloss
      eq_zero_iff := relativeStrength_eq_zero_iff hgain hloss }⟩

/-- A gain of one on average and a loss of a half become a gain of two and a loss of a quarter
when three more are gained. -/
theorem rsi_eq_wilder_nextStep :
    0 < 2 ∧ 2 ≤ 3 ∧ 3 < [(10 : ℚ), 12, 11, 14].length ∧
      (∃ gain loss index, StrengthAt id 2 [(10 : ℚ), 12, 11, 14] 3 gain loss index) ∧
      rsi 2 ([(10 : ℚ), 12, 11, 14].map (.number : ℚ → ExactNumber id)) =
        [.missing, .missing, .number (200 / 3), .number (800 / 9)] :=
  ⟨by decide, by decide, by decide, rsi_eq_wilder id (by decide) _ (by decide) (by decide),
    by decide +kernel⟩

end Numbers

end TradeSignals.Indicator
