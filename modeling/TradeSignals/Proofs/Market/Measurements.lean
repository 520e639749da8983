import TradeSignals.Proofs.Market.IndicatorLoops
import TradeSignals.Proofs.Market.WarmUp

/-!
# Every indicator is total

All indicators, with whatever lengths of windows, are spoken of as one thing here: a measurement
(`TradeSignals.Measurement`) is an indicator together with the words that are its lengths and the
column or the bars that it is taken of. For each of them there is a loop
(`TradeSignals.Measurement.looped`), the numbers that it stands for
(`TradeSignals.Measurement.numbers`), and the bar on which these begin
(`TradeSignals.Measurement.warmUp`).

The loop never fails, and gives one number for each thing, whatever the quantities are; a window of
length zero and one that is longer than the column leave everything missing
(`TradeSignals.Measurement.Total`). In exact arithmetic the numbers begin exactly where they should
(`TradeSignals.Measurement.Begins`); a quotient by zero or the root of a negative number would be
missing there, so none of these is ever computed on the way to a number.
-/

namespace TradeSignals

open Quantity

variable {α β : Type}

/-! ### Without a window -/

namespace Indicator

/-- There is no window of a length in a column of some size. -/
def Windowless (length size : ℕ) : Prop := length = 0 ∨ size < length

section Gaps

variable [Quantity α] [Absorbing α]

/-- Nothing has a distance from what is missing. -/
theorem gaps_sub {size : ℕ} {xs : List α} (h : xs.length = size) :
    List.zipWith (· - ·) (gaps size) xs = gaps size := by
  subst h
  induction xs with
  | nil => rfl
  | cons x xs ih => exact congrArg₂ List.cons (Absorbing.missing_sub x) ih

theorem sub_gaps {size : ℕ} {xs : List α} (h : xs.length = size) :
    List.zipWith (· - ·) xs (gaps size) = gaps size := by
  subst h
  induction xs with
  | nil => rfl
  | cons x xs ih => exact congrArg₂ List.cons (Absorbing.sub_missing x) ih

/-- An average of what is missing. -/
theorem ema_gaps (length size : ℕ) : ema length (gaps size : List α) = gaps size := by
  have hgap : leadingGaps (gaps size : List α) = size := by
    rw [leadingGaps, gaps, List.takeWhile_replicate, if_pos Absorbing.isMissing_missing]
    exact length_gaps size
  rw [ema, hgap, length_gaps]
  exact if_pos (by omega)

variable {length fast slow signal : ℕ} {xs : List α}

omit [Absorbing α] in
theorem ema_of_windowless (h : Windowless length xs.length) : ema length xs = gaps xs.length := by
  rw [ema]
  exact if_pos (h.imp_right fun h => Nat.lt_add_left _ h)

theorem macdLine_of_windowless (h : Windowless fast xs.length ∨ Windowless slow xs.length) :
    macdLine fast slow xs = gaps xs.length := by
  rw [macdLine]
  rcases h with h | h
  · rw [ema_of_windowless h, gaps_sub ((causal_ema slow).length_eq xs)]
  · rw [ema_of_windowless h, sub_gaps ((causal_ema fast).length_eq xs)]

theorem macdSignal_of_windowless (h : (Windowless fast xs.length ∨ Windowless slow xs.length) ∨
    Windowless signal xs.length) : macdSignal fast slow signal xs = gaps xs.length := by
  have hlength := (causal_macdLine fast slow).length_eq xs
  rw [macdSignal]
  rcases h with h | h
  · rw [macdLine_of_windowless h, ema_gaps]
  · rw [ema_of_windowless (hlength.symm ▸ h), hlength]

theorem macdHistogram_of_windowless (h : (Windowless fast xs.length ∨
    Windowless slow xs.length) ∨ Windowless signal xs.length) :
    macdHistogram fast slow signal xs = gaps xs.length := by
  rw [macdHistogram, macdSignal_of_windowless h,
    sub_gaps ((causal_macdLine fast slow).length_eq xs)]

end Gaps

end Indicator

/-! ### Indicators -/

/-- One of the lines of the bands. -/
inductive BandLine where
  /-- The line above. -/
  | upper
  /-- The line in the middle. -/
  | middle
  /-- The line below. -/
  | lower

/-- One of the lines that are made of the distance of two averages. -/
inductive MacdLine where
  /-- The distance. -/
  | distance
  /-- Its average. -/
  | signal
  /-- The distance of the two. -/
  | histogram

/-- One of the lines. -/
def BandLine.of : BandLine → Looped.Bands α → List α
  | .upper => Looped.Bands.upper
  | .middle => Looped.Bands.middle
  | .lower => Looped.Bands.lower

/-- One of the lines. -/
def MacdLine.of : MacdLine → Looped.Macd α → List α
  | .distance => Looped.Macd.line
  | .signal => Looped.Macd.signal
  | .histogram => Looped.Macd.histogram

/-- **An indicator** with its lengths, and what it is taken of. -/
inductive Measurement (α : Type) where
  /-- The simple moving average. -/
  | sma (length : UInt64) (xs : List α)
  /-- The exponential moving average. -/
  | ema (length : UInt64) (xs : List α)
  /-- The weighted moving average. -/
  | wma (length : UInt64) (xs : List α)
  /-- The relative strength index. -/
  | rsi (length : UInt64) (xs : List α)
  /-- The rate of change. -/
  | roc (length : UInt64) (xs : List α)
  /-- The standard deviation. -/
  | stddev (length : UInt64) (xs : List α)
  /-- The bands. -/
  | bands (line : BandLine) (length : UInt64) (deviations : α) (xs : List α)
  /-- The distance of two averages. -/
  | macd (line : MacdLine) (fast slow signal : UInt64) (xs : List α)
  /-- The average true range. -/
  | atr (length : UInt64) (bars : List (Bar α))
  /-- The on-balance volume. -/
  | obv (bars : List (Bar α))
  /-- The retracement to a level. -/
  | retracement (level : Retracement) (length : UInt64) (bars : List (Bar α))

namespace Measurement

/-- Of how many things it is taken. -/
def size : Measurement α → ℕ
  | .sma _ xs | .ema _ xs | .wma _ xs | .rsi _ xs | .roc _ xs | .stddev _ xs | .bands _ _ _ xs
  | .macd _ _ _ _ xs => xs.length
  | .atr _ bars | .obv bars | .retracement _ _ bars => bars.length

/-- The lengths that a line is made with; the distance of two averages goes without a third one. -/
def lengths : Measurement α → List UInt64
  | .sma length _ | .ema length _ | .wma length _ | .rsi length _ | .roc length _
  | .stddev length _ | .bands _ length _ _ | .atr length _ | .retracement _ length _ => [length]
  | .macd .distance fast slow _ _ => [fast, slow]
  | .macd .signal fast slow signal _ | .macd .histogram fast slow signal _ => [fast, slow, signal]
  | .obv _ => []

/-- **The bar on which the numbers begin.** -/
def warmUp : Measurement α → ℕ
  | .sma length _ | .ema length _ | .wma length _ | .stddev length _ | .bands _ length _ _
  | .atr length _ | .retracement _ length _ => length.toNat - 1
  | .rsi length _ | .roc length _ => length.toNat
  | .macd .distance fast slow _ _ => max fast.toNat slow.toNat - 1
  | .macd .signal fast slow signal _ | .macd .histogram fast slow signal _ =>
    max fast.toNat slow.toNat + signal.toNat - 2
  | .obv _ => 0

/-- The same indicator of other numbers. -/
def map (f : α → β) : Measurement α → Measurement β
  | .sma length xs => .sma length (xs.map f)
  | .ema length xs => .ema length (xs.map f)
  | .wma length xs => .wma length (xs.map f)
  | .rsi length xs => .rsi length (xs.map f)
  | .roc length xs => .roc length (xs.map f)
  | .stddev length xs => .stddev length (xs.map f)
  | .bands line length deviations xs => .bands line length (f deviations) (xs.map f)
  | .macd line fast slow signal xs => .macd line fast slow signal (xs.map f)
  | .atr length bars => .atr length (bars.map (Bar.map f))
  | .obv bars => .obv (bars.map (Bar.map f))
  | .retracement level length bars => .retracement level length (bars.map (Bar.map f))

theorem size_map (f : α → β) (m : Measurement α) : (m.map f).size = m.size := by
  cases m <;> exact List.length_map _

variable [Quantity α]

/-- **The numbers** of an indicator. -/
def numbers : Measurement α → List α
  | .sma length xs => Indicator.sma length.toNat xs
  | .ema length xs => Indicator.ema length.toNat xs
  | .wma length xs => Indicator.wma length.toNat xs
  | .rsi length xs => Indicator.rsi length.toNat xs
  | .roc length xs => Indicator.roc length.toNat xs
  | .stddev length xs => Indicator.stddev length.toNat xs
  | .bands .upper length deviations xs => Indicator.upperBand length.toNat deviations xs
  | .bands .middle length _ xs => Indicator.middleBand length.toNat xs
  | .bands .lower length deviations xs => Indicator.lowerBand length.toNat deviations xs
  | .macd .distance fast slow _ xs => Indicator.macdLine fast.toNat slow.toNat xs
  | .macd .signal fast slow signal xs =>
    Indicator.macdSignal fast.toNat slow.toNat signal.toNat xs
  | .macd .histogram fast slow signal xs =>
    Indicator.macdHistogram fast.toNat slow.toNat signal.toNat xs
  | .atr length bars => Indicator.atr length.toNat bars
  | .obv bars => Indicator.obv bars
  | .retracement level length bars => Indicator.retracement level length.toNat bars

/-- **What the loop of an indicator gives,** unless it fails. -/
def looped : Measurement α → Option (List α)
  | .sma length xs => Looped.sma length.toNat xs
  | .ema length xs => Looped.ema length.toNat xs
  | .wma length xs => Looped.wma length.toNat xs
  | .rsi length xs => Looped.rsi length.toNat xs
  | .roc length xs => Looped.roc length.toNat xs
  | .stddev length xs => Looped.stddev length.toNat xs
  | .bands line length deviations xs => (Looped.bands length.toNat deviations xs).map line.of
  | .macd line fast slow signal xs =>
    (Looped.macd fast.toNat slow.toNat signal.toNat xs).map line.of
  | .atr length bars => Looped.atr length.toNat bars
  | .obv bars => Looped.obv bars
  | .retracement level length bars => Looped.retracement level length.toNat bars

/-- **An indicator that is total,** for whatever lengths. -/
structure Total (m : Measurement α) : Prop where
  /-- Its loop does not fail: no index and no slice is out of range, and all sums and differences of
  words are words. -/
  looped : m.looped = some m.numbers
  /-- There is one number for each thing. -/
  length_eq : m.numbers.length = m.size
  /-- With a window of length zero or one that is too long there are none. -/
  without_window : (∃ n ∈ m.lengths, n = 0 ∨ m.size < n.toNat) → m.numbers = gaps m.size

theorem looped_eq (m : Measurement α) (hsize : m.size < 2 ^ 64) :
    m.looped = some m.numbers := by
  cases m with
  | sma length xs => exact Looped.sma_eq hsize _
  | ema length xs => exact Looped.ema_eq hsize _
  | wma length xs => exact Looped.wma_eq hsize _
  | rsi length xs => exact Looped.rsi_eq hsize _
  | roc length xs => exact Looped.roc_eq xs _
  | stddev length xs => exact Looped.stddev_eq hsize _
  | bands line length deviations xs =>
    rw [looped, Looped.bands_eq hsize]
    cases line <;> rfl
  | macd line fast slow signal xs =>
    rw [looped, Looped.macd_eq hsize]
    cases line <;> rfl
  | atr length bars => exact Looped.atr_eq _
  | obv bars => exact Looped.obv_eq bars
  | retracement level length bars => exact Looped.retracement_eq hsize level _

theorem length_numbers (m : Measurement α) : m.numbers.length = m.size := by
  cases m with
  | sma length xs => exact (Indicator.causal_sma _).length_eq xs
  | ema length xs => exact (Indicator.causal_ema _).length_eq xs
  | wma length xs => exact (Indicator.causal_overWindows _ _).length_eq xs
  | rsi length xs => exact (Indicator.causal_rsi _).length_eq xs
  | roc length xs => exact (Indicator.causal_roc _).length_eq xs
  | stddev length xs => exact (Indicator.causal_overWindows _ _).length_eq xs
  | bands line length deviations xs =>
    cases line <;> exact (Indicator.causal_overWindows _ _).length_eq xs
  | macd line fast slow signal xs =>
    cases line with
    | distance => exact (Indicator.causal_macdLine _ _).length_eq xs
    | signal => exact (Indicator.causal_macdSignal _ _ _).length_eq xs
    | histogram =>
      exact ((Indicator.causal_macdLine _ _).zipWith (· - ·)
        (Indicator.causal_macdSignal _ _ _)).length_eq xs
  | atr length bars => exact (Indicator.causal_atr _).length_eq bars
  | obv bars => exact Indicator.causal_obv.length_eq bars
  | retracement level length bars => exact (Indicator.causal_overWindows _ _).length_eq bars

/-- **Without a window** there are no numbers. -/
theorem numbers_of_short [Absorbing α] (m : Measurement α)
    (h : ∃ n ∈ m.lengths, n = 0 ∨ m.size < n.toNat) : m.numbers = gaps m.size := by
  obtain ⟨n, hn, h⟩ := h
  have hshort : Indicator.Windowless n.toNat m.size := h.imp_left fun h => congrArg UInt64.toNat h
  cases m with
  | obv bars => cases hn
  | ema length xs =>
    rw [List.mem_singleton.1 hn] at hshort
    exact Indicator.ema_of_windowless hshort
  | rsi length xs | roc length xs =>
    rw [List.mem_singleton.1 hn] at hshort
    exact if_pos (hshort.imp_right Nat.le_of_lt)
  | bands line length deviations xs =>
    rw [List.mem_singleton.1 hn] at hshort
    cases line <;> exact if_pos hshort
  | macd line fast slow signal xs =>
    cases line with
    | distance =>
      rcases List.mem_pair.1 hn with rfl | rfl
      · exact Indicator.macdLine_of_windowless (.inl hshort)
      · exact Indicator.macdLine_of_windowless (.inr hshort)
    | signal =>
      rcases List.mem_cons.1 hn with rfl | hn
      · exact Indicator.macdSignal_of_windowless (.inl (.inl hshort))
      rcases List.mem_pair.1 hn with rfl | rfl
      · exact Indicator.macdSignal_of_windowless (.inl (.inr hshort))
      · exact Indicator.macdSignal_of_windowless (.inr hshort)
    | histogram =>
      rcases List.mem_cons.1 hn with rfl | hn
      · exact Indicator.macdHistogram_of_windowless (.inl (.inl hshort))
      rcases List.mem_pair.1 hn with rfl | rfl
      · exact Indicator.macdHistogram_of_windowless (.inl (.inr hshort))
      · exact Indicator.macdHistogram_of_windowless (.inr hshort)
  | _ =>
    rw [List.mem_singleton.1 hn] at hshort
    exact if_pos hshort

/-- **An indicator of numbers begins** where it should, in exact arithmetic. -/
structure Begins {K : Type} [OrderedField K] (root : K → K) (m : Measurement K) : Prop where
  /-- There is a number for each thing from some one on. -/
  number_iff : ∀ i < m.size,
    (∃ x, (m.map (ExactNumber.number : K → ExactNumber root)).numbers[i]? = some (.number x)) ↔
      m.warmUp ≤ i
  /-- Before, the number is missing. -/
  missing : ∀ i < m.size, i < m.warmUp →
    (m.map (ExactNumber.number : K → ExactNumber root)).numbers[i]? = some .missing

section Numbers

variable {K : Type} [OrderedField K] (root : K → K)

theorem warmsUp_numbers (m : Measurement K) (h : ∀ n ∈ m.lengths, n ≠ 0) :
    Indicator.WarmsUp m.warmUp (m.map (ExactNumber.number : K → ExactNumber root)).numbers := by
  have hpos : ∀ n ∈ m.lengths, 0 < n.toNat := fun n hn =>
    Nat.pos_of_ne_zero fun hzero => h n hn (UInt64.toNat_inj.1 hzero)
  cases m with
  | sma length xs => exact Indicator.warmsUp_sma (hpos _ (List.mem_singleton_self _)) xs
  | ema length xs => exact Indicator.warmsUp_ema (hpos _ (List.mem_singleton_self _)) xs
  | wma length xs => exact Indicator.warmsUp_wma (hpos _ (List.mem_singleton_self _)) xs
  | rsi length xs => exact Indicator.warmsUp_rsi (hpos _ (List.mem_singleton_self _)) xs
  | roc length xs => exact Indicator.warmsUp_roc (hpos _ (List.mem_singleton_self _)) xs
  | stddev length xs => exact Indicator.warmsUp_stddev (hpos _ (List.mem_singleton_self _)) xs
  | bands line length deviations xs =>
    have hlength := hpos _ (List.mem_singleton_self _)
    cases line with
    | upper => exact Indicator.warmsUp_upperBand hlength deviations xs
    | middle => exact Indicator.warmsUp_middleBand hlength xs
    | lower => exact Indicator.warmsUp_lowerBand hlength deviations xs
  | macd line fast slow signal xs =>
    cases line with
    | distance =>
      exact Indicator.warmsUp_macdLine (hpos _ (.head _)) (hpos _ (.tail _ (.head _))) xs
    | signal =>
      exact Indicator.warmsUp_macdSignal (hpos _ (.head _)) (hpos _ (.tail _ (.head _)))
        (hpos _ (.tail _ (.tail _ (.head _)))) xs
    | histogram =>
      exact Indicator.warmsUp_macdHistogram (hpos _ (.head _)) (hpos _ (.tail _ (.head _)))
        (hpos _ (.tail _ (.tail _ (.head _)))) xs
  | atr length bars => exact Indicator.warmsUp_atr (hpos _ (List.mem_singleton_self _)) bars
  | obv bars => exact Indicator.warmsUp_obv bars
  | retracement level length bars =>
    exact Indicator.warmsUp_retracement (hpos _ (List.mem_singleton_self _)) level bars

theorem begins (m : Measurement K) (h : ∀ n ∈ m.lengths, n ≠ 0) : m.Begins root := by
  have hwarms := m.warmsUp_numbers root h
  have hlength : (m.map (ExactNumber.number : K → ExactNumber root)).numbers.length = m.size :=
    (length_numbers _).trans (size_map _ m)
  have hmissing : ∀ i < m.size, i < m.warmUp →
      (m.map (ExactNumber.number : K → ExactNumber root)).numbers[i]? = some .missing :=
    fun i hi hlt => hwarms.missing i hlt (hlength.symm ▸ hi)
  refine ⟨fun i hi => ⟨fun hnumber => ?_, fun hle => ?_⟩, hmissing⟩
  · refine Nat.le_of_not_lt fun hlt => ?_
    obtain ⟨x, hx⟩ := hnumber
    cases hx.symm.trans (hmissing i hi hlt)
  · have hx : (m.map (ExactNumber.number : K → ExactNumber root)).numbers[i]? = some _ :=
      List.getElem?_eq_getElem (hlength.symm ▸ hi)
    obtain ⟨x, hnumber⟩ := hwarms.number i hle _ hx
    exact ⟨x, hx.trans (congrArg some hnumber)⟩

end Numbers

/-- **Every indicator is total, and begins where it should:** its loop never fails, there is one
number for each thing, and in exact arithmetic the numbers begin with the first whole window. -/
theorem total_and_begins :
    (∀ (α : Type) [Quantity α] [Absorbing α] (m : Measurement α), m.size < 2 ^ 64 → m.Total) ∧
    ∀ (K : Type) [OrderedField K] (root : K → K) (m : Measurement K),
      (∀ n ∈ m.lengths, n ≠ 0) → m.Begins root :=
  ⟨fun _ _ _ m hsize => ⟨m.looped_eq hsize, m.length_numbers, m.numbers_of_short⟩,
    fun _ _ root m h => m.begins root h⟩

/-- The signal of an average of two and one of three numbers begins with the fourth of five, and a
window of the greatest length leaves three doubles without a number. -/
theorem total_and_begins_signal :
    let m : Measurement ℚ := .macd .signal 2 3 2 [1, 2, 4, 8, 16]
    let long : Measurement Float := .rsi 18446744073709551615 [1, 2, 3]
    long.size < 2 ^ 64 ∧ long.looped = some (gaps 3) ∧ (∀ n ∈ m.lengths, n ≠ 0) ∧
      m.Begins id ∧ (m.map (.number : ℚ → ExactNumber id)).numbers =
        [.missing, .missing, .missing, .number (37 / 36), .number (589 / 324)] := by
  intro m long
  have htotal : long.Total := total_and_begins.1 Float long (by decide)
  have hlong : 3 < (18446744073709551615 : UInt64).toNat := by
    change 3 < 18446744073709551615
    norm_num
  have hgaps : long.numbers = gaps 3 :=
    htotal.without_window ⟨18446744073709551615, List.mem_singleton_self _, .inr hlong⟩
  have hlengths : ∀ n ∈ [(2 : UInt64), 3, 2], n ≠ 0 := by simp
  exact ⟨by decide, hgaps ▸ htotal.looped, hlengths, total_and_begins.2 ℚ id m hlengths,
    by decide +kernel⟩

end Measurement

end TradeSignals
