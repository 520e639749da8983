import TradeSignals.Proofs.Market.Loops
import TradeSignals.Proofs.Market.SlidingMean

/-!
# The loops of the indicators

Each indicator as a loop over words, with the guards that it has, the slices that it takes and the
indices that it reads and writes. None of them fails, and each gives the column that the indicator
stands for (`TradeSignals.Looped.sma_eq`, `TradeSignals.Looped.ema_eq` and so on), for all lengths
of windows: those for which there is no whole window do not get past the guards, or the loop has no
index. All that is needed is that the column itself has a length that is a word.

There are three kinds of loops. The windows are looked at one by one
(`TradeSignals.Looped.overWindows_eq`); a recurrence is gone through, with the number of the last
bar in a variable (`TradeSignals.Looped.foldlM_recurrence`); and the simple moving average and the
on-balance volume go on in ways of their own.
-/

namespace TradeSignals.Looped

open Quantity Indicator

open Indexed (plus? minus? part? write? places plus?_one plus?_of_lt minus?_of_le part?_of_le
  mapM_places mapM_range' foldlM_places)

variable {α β σ : Type} [Quantity α]

/-! ### The simple moving average -/

/-- A number enters the window. -/
def enter? (w : Rolling α) (x : α) : Option (Rolling α) :=
  if isMissing x then (plus? w.missing 1).map fun missing => { w with missing }
  else some { w with total := w.total + x }

/-- A number leaves the window. -/
def leave? (w : Rolling α) (x : α) : Option (Rolling α) :=
  if isMissing x then (minus? w.missing 1).map fun missing => { w with missing }
  else some { w with total := w.total - x }

/-- The window goes on to the next bar. -/
def slide? (length : ℕ) (xs : List α) (w : Rolling α) (i : ℕ) : Option (Rolling α) := do
  let w ← enter? w (← xs[i]?)
  if length ≤ i then leave? w (← xs[← minus? i length]?) else return w

/-- One step of the simple moving average. -/
def smaStep (length : ℕ) (xs : List α) (s : Rolling α × List α) (i : ℕ) :
    Option (Rolling α × List α) := do
  let w ← slide? length xs s.1 i
  if length ≤ (← plus? i 1) ∧ w.missing = 0 then
    return (w, ← write? s.2 i (w.total / ofNat length))
  else return (w, s.2)

/-- The simple moving average. -/
def sma (length : ℕ) (xs : List α) : Option (List α) :=
  if length = 0 then some (gaps xs.length)
  else
    ((places 0 xs.length).foldlM (smaStep length xs) (⟨ofInt 0, 0⟩, gaps xs.length)).map Prod.snd

section Sma

variable {length i : ℕ} {w : Rolling α} {x : α} {xs : List α}

theorem enter?_of_lt (h : w.missing + 1 < 2 ^ 64) : enter? w x = some (w.enter x) := by
  rw [enter?, Rolling.enter, plus?_of_lt h]
  split <;> rfl

theorem leave?_of_pos (h : isMissing x = true → 0 < w.missing) :
    leave? w x = some (w.leave x) := by
  rw [leave?, Rolling.leave]
  split
  next hmissing =>
    rw [minus?_of_le (h hmissing)]
    rfl
  next => rfl

/-- **The window goes on** without an overflow, and without taking from a count of zero. -/
theorem slide?_after (hsize : xs.length < 2 ^ 64) (hi : i < xs.length) :
    slide? length xs (Rolling.after length xs i) i = some (Rolling.after length xs (i + 1)) := by
  have hx : xs[i]? = some xs[i] := List.getElem?_eq_getElem hi
  have hcount := Rolling.missing_after_le length (Nat.le_of_lt hi)
  have henter : enter? (Rolling.after length xs i) xs[i] =
      some ((Rolling.after length xs i).enter xs[i]) := enter?_of_lt (by omega)
  simp only [slide?, hx, henter, Option.bind_eq_bind, Option.bind_some]
  split
  next hle =>
    have hold : xs[i - length]? = some xs[i - length] := List.getElem?_eq_getElem (by omega)
    simp only [minus?_of_le hle, hold, Option.bind_some]
    rw [leave?_of_pos (Rolling.missing_pos_of_leaving hle hx hold),
      Rolling.after_succ_of_le hle hx hold]
  next hlt =>
    rw [Rolling.after_succ_of_lt (Nat.lt_of_not_le hlt) hx]
    rfl

/-- One step goes on from what is known of the window and what is written. -/
theorem smaStep_after (hsize : xs.length < 2 ^ 64) (hlength : 0 < length)
    (hi : i < xs.length) :
    smaStep length xs (Rolling.after length xs i, written (Indicator.sma length xs) i) i =
      some (Rolling.after length xs (i + 1), written (Indicator.sma length xs) (i + 1)) := by
  have hfinal := getElem?_sma hlength hi
  simp only [smaStep, slide?_after hsize hi, plus?_one hi hsize,
    Option.bind_eq_bind, Option.bind_some]
  rw [Rolling.mean] at hfinal
  split
  next h =>
    rw [if_pos h.1, if_pos h.2] at hfinal
    rw [write?_written hfinal]
    rfl
  next h =>
    have hmissing : (Indicator.sma length xs)[i]? = some missing := by
      rw [hfinal]
      split_ifs with hle hzero
      · exact absurd ⟨hle, hzero⟩ h
      · rfl
      · rfl
    rw [written_succ_of_missing hmissing]
    rfl

/-- **The loop of the simple moving average.** -/
theorem sma_eq (hsize : xs.length < 2 ^ 64) (length : ℕ) :
    sma length xs = some (Indicator.sma length xs) := by
  have hlen : (Indicator.sma length xs).length = xs.length := (causal_sma length).length_eq xs
  rw [sma]
  split
  next hzero => exact congrArg some (if_pos (.inl hzero)).symm
  next hpos =>
    have hloop := foldlM_places 0 xs.length
      (fun i => (Rolling.after length xs i, written (Indicator.sma length xs) i))
      fun i _ hi => smaStep_after hsize (Nat.pos_of_ne_zero hpos) hi
    rw [Nat.min_eq_left (Nat.zero_le _), written_zero, hlen, written_all hlen] at hloop
    exact congrArg (Option.map Prod.snd) hloop

end Sma

/-! ### Windows one by one -/

/-- The window of a bar. -/
def windowAt? (length : ℕ) (xs : List β) (i : ℕ) : Option (List β) := do
  let bound ← plus? i 1
  part? xs (← minus? bound length) bound

/-- A loop that looks at the window of each bar. -/
def overWindows (length : ℕ) (value? : List β → Option α) (xs : List β) : Option (List α) :=
  (places (length - 1) xs.length).foldlM
    (fun out i => do write? out i (← value? (← windowAt? length xs i))) (gaps xs.length)

section OverWindows

variable {length i : ℕ} {xs : List β}

theorem windowAt?_eq (hsize : xs.length < 2 ^ 64) (hi : i < xs.length) (h : length ≤ i + 1) :
    windowAt? length xs i = some (recent length xs (i + 1)) := by
  simp only [windowAt?, plus?_one hi hsize, minus?_of_le h, Option.bind_eq_bind, Option.bind_some]
  exact part?_of_le (Nat.sub_le _ _) hi

/-- **A loop over windows,** if what is done with a window does not fail. -/
theorem overWindows_eq (hsize : xs.length < 2 ^ 64) (hlength : 0 < length)
    {value? : List β → Option α} {value : List β → α}
    (hvalue : ∀ window, window.length < 2 ^ 64 → value? window = some (value window)) :
    overWindows length value? xs = some (Indicator.overWindows length value xs) := by
  refine foldlM_written ((causal_overWindows length value).length_eq xs) ?_ fun i hfirst hi => ?_
  · intro i hgap hi
    rw [getElem?_overWindows hlength value hi, if_neg (by omega)]
  · have hle : length ≤ i + 1 := by omega
    have hwindow := hvalue (recent length xs (i + 1))
      ((length_recent_le length xs (i + 1)).trans_lt (Nat.lt_of_le_of_lt hi hsize))
    simp only [windowAt?_eq hsize hi hle, hwindow, Option.bind_eq_bind, Option.bind_some]
    refine write?_written ?_
    rw [getElem?_overWindows hlength value hi, if_pos hle]

end OverWindows

/-- The numbers of a window with their weights. -/
def weighted? (window : List α) : Option (List α) :=
  (places 0 window.length).mapM fun i => do
    let x ← window[i]?
    return ofNat (← plus? i 1) * x

/-- The weighted moving average. -/
def wma (length : ℕ) (xs : List α) : Option (List α) :=
  if length = 0 ∨ xs.length < length then some (gaps xs.length)
  else
    let n : α := ofNat length
    let divisor := n * (n + ofInt 1) / ofInt 2
    overWindows length (fun window => return sum (← weighted? window) / divisor) xs

theorem weighted?_eq {window : List α} (hsize : window.length < 2 ^ 64) :
    weighted? window = some (weighted window) := by
  have hlen : (weighted window).length = window.length := List.length_mapIdx
  refine mapM_places hlen fun i x hx => ?_
  obtain ⟨hi, rfl⟩ := List.getElem?_eq_some_iff.1 hx
  rw [hlen] at hi
  simp only [List.getElem?_eq_getElem hi, plus?_one hi hsize, weighted, List.getElem_mapIdx,
    Option.bind_eq_bind, Option.bind_some]
  rfl

/-- **The loop of the weighted moving average.** -/
theorem wma_eq {xs : List α} (hsize : xs.length < 2 ^ 64) (length : ℕ) :
    wma length xs = some (Indicator.wma length xs) := by
  rw [wma]
  split
  next hshort => exact congrArg some (if_pos hshort).symm
  next hlong =>
    refine overWindows_eq hsize (by omega) fun window hwindow => ?_
    rw [weighted?_eq hwindow]
    rfl

/-- The standard deviation. -/
def stddev (length : ℕ) (xs : List α) : Option (List α) :=
  if length = 0 then some (gaps xs.length)
  else overWindows length (fun window => some (deviation window)) xs

/-- **The loop of the standard deviation.** -/
theorem stddev_eq {xs : List α} (hsize : xs.length < 2 ^ 64) (length : ℕ) :
    stddev length xs = some (Indicator.stddev length xs) := by
  rw [stddev]
  split
  next hzero => exact congrArg some (if_pos (.inl hzero)).symm
  next hpos => exact overWindows_eq hsize (Nat.pos_of_ne_zero hpos) fun _ _ => rfl

/-- The retracement to a level. -/
def retracement (level : Retracement) (length : ℕ) (bars : List (Bar α)) : Option (List α) :=
  if length = 0 then some (gaps bars.length)
  else overWindows length (fun window => some (levelPrice level window)) bars

/-- **The loop of the retracement.** -/
theorem retracement_eq {bars : List (Bar α)} (hsize : bars.length < 2 ^ 64)
    (level : Retracement) (length : ℕ) :
    retracement level length bars = some (Indicator.retracement level length bars) := by
  rw [retracement]
  split
  next hzero => exact congrArg some (if_pos (.inl hzero)).symm
  next hpos => exact overWindows_eq hsize (Nat.pos_of_ne_zero hpos) fun _ _ => rfl

/-- The three lines of the bands: the upper one, the one in the middle, and the lower one. -/
structure Bands (α : Type) where
  /-- The line above. -/
  upper : List α
  /-- The line in the middle. -/
  middle : List α
  /-- The line below. -/
  lower : List α

/-- One step of the bands. -/
def bandsStep (length : ℕ) (deviations : α) (xs : List α) (bands : Bands α) (i : ℕ) :
    Option (Bands α) := do
  let window ← windowAt? length xs i
  let center := mean window
  let distance := deviations * deviation window
  let middle ← write? bands.middle i center
  let upper ← write? bands.upper i (center + distance)
  let lower ← write? bands.lower i (center - distance)
  return ⟨upper, middle, lower⟩

/-- The bands. -/
def bands (length : ℕ) (deviations : α) (xs : List α) : Option (Bands α) :=
  let empty := ⟨gaps xs.length, gaps xs.length, gaps xs.length⟩
  if length = 0 then some empty
  else (places (length - 1) xs.length).foldlM (bandsStep length deviations xs) empty

/-- The bands that are written up to an index. -/
def writtenBands (length : ℕ) (deviations : α) (xs : List α) (i : ℕ) : Bands α where
  upper := written (upperBand length deviations xs) i
  middle := written (middleBand length xs) i
  lower := written (lowerBand length deviations xs) i

/-- One step writes one more place in each of the lines. -/
theorem bandsStep_written {length i : ℕ} {xs : List α} (hsize : xs.length < 2 ^ 64)
    (hlength : 0 < length) (hle : length ≤ i + 1) (hi : i < xs.length) (deviations : α) :
    bandsStep length deviations xs (writtenBands length deviations xs i) i =
      some (writtenBands length deviations xs (i + 1)) := by
  have hput : ∀ value : List α → α,
      write? (written (Indicator.overWindows length value xs) i) i
          (value (recent length xs (i + 1))) =
        some (written (Indicator.overWindows length value xs) (i + 1)) := by
    intro value
    refine write?_written ?_
    rw [getElem?_overWindows hlength value hi, if_pos hle]
  simp only [bandsStep, windowAt?_eq hsize hi hle, Option.bind_eq_bind, Option.bind_some,
    writtenBands, upperBand, middleBand, lowerBand, hput mean,
    hput fun window => mean window + deviations * deviation window,
    hput fun window => mean window - deviations * deviation window]
  rfl

/-- **The loop of the bands.** -/
theorem bands_eq {xs : List α} (hsize : xs.length < 2 ^ 64) (length : ℕ) (deviations : α) :
    bands length deviations xs = some ⟨upperBand length deviations xs, middleBand length xs,
      lowerBand length deviations xs⟩ := by
  rw [bands]
  split
  next hzero =>
    have hgaps : ∀ value : List α → α, Indicator.overWindows length value xs = gaps xs.length :=
      fun _ => if_pos (.inl hzero)
    rw [upperBand, middleBand, lowerBand, hgaps, hgaps, hgaps]
  next hpos =>
    have hlength : 0 < length := Nat.pos_of_ne_zero hpos
    have hlen := fun value : List α → α => (causal_overWindows length value).length_eq xs
    have hfirst : ∀ value : List α → α,
        written (Indicator.overWindows length value xs) (min (length - 1) xs.length) =
          gaps xs.length := by
      refine fun value => written_min (hlen value) fun i hgap hi => ?_
      rw [getElem?_overWindows hlength value hi, if_neg (by omega)]
    have hlast := fun value : List α → α => written_all (hlen value)
    have hloop := foldlM_places (length - 1) xs.length (writtenBands length deviations xs)
      fun i hgap hi => bandsStep_written hsize hlength (by omega) hi deviations
    simpa only [writtenBands, upperBand, middleBand, lowerBand, hfirst, hlast] using hloop

/-! ### Recurrences -/

/-- One step of the exponential moving average. -/
def emaStep (length : ℕ) (xs : List α) (s : α × List α) (i : ℕ) : Option (α × List α) := do
  let weight : α := emaWeight length
  let average := (← xs[i]?) * weight + s.1 * (ofInt 1 - weight)
  return (average, ← write? s.2 i average)

theorem emaStep_eq (length : ℕ) {xs : List α} {i : ℕ} {x : α} (average : α) (out : List α)
    (hx : xs[i]? = some x) :
    let next := x * emaWeight length + average * (ofInt 1 - emaWeight length)
    emaStep length xs (average, out) i = (write? out i next).map (Prod.mk next) := by
  simp only [emaStep, hx, Option.bind_eq_bind, Option.bind_some]
  exact Option.map_eq_bind.symm

/-- The exponential moving average. The end of the first window is looked for with a sum that may be
too large for a word. -/
def ema (length : ℕ) (xs : List α) : Option (List α) :=
  if length = 0 then some (gaps xs.length)
  else
    let start := leadingGaps xs
    match (plus? start length).filter (· ≤ xs.length) with
    | none => some (gaps xs.length)
    | some bound => do
      let average := sum (← part? xs start bound) / ofNat length
      let out ← write? (gaps xs.length) (← minus? bound 1) average
      ((places bound xs.length).foldlM (emaStep length xs) (average, out)).map Prod.snd

/-- **The loop of the exponential moving average.** A sum that is too large for a word is too large
for the column, as well. -/
theorem ema_eq {xs : List α} (hsize : xs.length < 2 ^ 64) (length : ℕ) :
    ema length xs = some (Indicator.ema length xs) := by
  rw [ema]
  split
  next hzero => exact congrArg some (if_pos (.inl hzero)).symm
  next hpos =>
    have hstart := leadingGaps_le xs
    dsimp only
    by_cases hfits : leadingGaps xs + length ≤ xs.length
    · have hbound : (plus? (leadingGaps xs) length).filter (· ≤ xs.length) =
          some (leadingGaps xs + length) := by
        rw [plus?_of_lt (Nat.lt_of_le_of_lt hfits hsize), Option.filter_some,
          if_pos (decide_eq_true hfits)]
      rw [hbound]
      have hslice : part? xs (leadingGaps xs) (leadingGaps xs + length) =
          some ((xs.drop (leadingGaps xs)).take length) := by
        rw [part?_of_le (Nat.le_add_right _ _) hfits, List.drop_take, Nat.add_sub_cancel_left]
      have hlast : minus? (leadingGaps xs + length) 1 = some (leadingGaps xs + length - 1) :=
        minus?_of_le (by omega)
      simp only [hslice, hlast, Option.bind_eq_bind, Option.bind_some]
      have hinputs : ((xs.drop (leadingGaps xs)).drop length).length =
          xs.length - (leadingGaps xs + length) := by
        rw [List.drop_drop, List.length_drop]
      rw [Indicator.ema, if_neg (by omega)]
      dsimp only
      rw [← List.map_id (recurrence _ _ _)]
      refine foldlM_recurrence id (by omega) (by omega) fun k x average out hx => ?_
      rw [List.drop_drop, List.getElem?_drop] at hx
      rw [emaStep_eq length average out hx]
      congr 2
      omega
    · have hbound : (plus? (leadingGaps xs) length).filter (· ≤ xs.length) = none := by
        rw [plus?]
        split
        · rw [Option.filter_some, if_neg (by simpa using hfits)]
        · rfl
      rw [hbound, Indicator.ema, if_pos (.inr (by omega))]

/-- The three lines of the distance of two averages. -/
structure Macd (α : Type) where
  /-- The distance. -/
  line : List α
  /-- Its average. -/
  signal : List α
  /-- The distance of the two. -/
  histogram : List α

/-- The distance of two averages. -/
def macd (fast slow signal : ℕ) (xs : List α) : Option (Macd α) := do
  let fastAverage ← ema fast xs
  let slowAverage ← ema slow xs
  let line := List.zipWith (· - ·) fastAverage slowAverage
  let average ← ema signal line
  return ⟨line, average, List.zipWith (· - ·) line average⟩

/-- **The loops of the distance of two averages.** -/
theorem macd_eq {xs : List α} (hsize : xs.length < 2 ^ 64) (fast slow signal : ℕ) :
    macd fast slow signal xs = some ⟨macdLine fast slow xs, macdSignal fast slow signal xs,
      macdHistogram fast slow signal xs⟩ := by
  have hline : (macdLine fast slow xs).length < 2 ^ 64 := by
    rwa [(causal_macdLine fast slow).length_eq]
  have hsignal := ema_eq hline signal
  rw [macdLine] at hsignal
  simp only [macd, ema_eq hsize, hsignal, Option.bind_eq_bind, Option.bind_some]
  rfl

/-- What changes from each number to the next. -/
def changes? (xs : List α) : Option (List α) :=
  (windows 2 xs).mapM fun window => do
    let x ← window[1]?
    let old ← window[0]?
    return x - old

theorem changes?_eq (xs : List α) : changes? xs = some (changes xs) := by
  have hlen : xs.length + 1 - 2 = (changes xs).length := by
    rw [length_changes]
    omega
  rw [changes?, windows, List.mapM_map, hlen, List.range_eq_range']
  refine mapM_range' fun i x hx => ?_
  obtain ⟨hi, rfl⟩ := List.getElem?_eq_some_iff.1 hx
  rw [length_changes] at hi
  have hold : ((xs.drop i).take 2)[0]? = some xs[i] := by
    rw [List.getElem?_take_of_lt (by omega), List.getElem?_drop]
    exact List.getElem?_eq_getElem _
  have hnew : ((xs.drop i).take 2)[1]? = some xs[i + 1] := by
    rw [List.getElem?_take_of_lt (by omega), List.getElem?_drop]
    exact List.getElem?_eq_getElem _
  simp only [Function.comp_apply, Nat.zero_add, hold, hnew, changes, List.getElem_zipWith,
    List.getElem_tail, Option.bind_eq_bind, Option.bind_some]
  rfl

/-- One step of an average that is smoothed. -/
def smooth? (length : ℕ) (average x : α) : Option α := do
  let others ← minus? length 1
  return (average * ofNat others + x) / ofNat length

theorem smooth?_eq {length : ℕ} (hlength : 0 < length) (average x : α) :
    smooth? length average x = some ((average * ofNat (length - 1) + x) / ofNat length) := by
  rw [smooth?, minus?_of_le hlength]
  rfl

/-- One step of the relative strength index. -/
def rsiStep (length : ℕ) (steps : List α) (s : (α × α) × List α) (i : ℕ) :
    Option ((α × α) × List α) := do
  let change ← steps[i]?
  let averageGain ← smooth? length s.1.1 (gain change)
  let averageLoss ← smooth? length s.1.2 (loss change)
  return ((averageGain, averageLoss), ← write? s.2 (← plus? i 1) (strength averageGain averageLoss))

/-- The relative strength index. -/
def rsi (length : ℕ) (xs : List α) : Option (List α) :=
  if length = 0 ∨ xs.length ≤ length then some (gaps xs.length)
  else do
    let steps ← changes? xs
    let averageGain := sum ((← part? steps 0 length).map gain) / ofNat length
    let averageLoss := sum ((← part? steps 0 length).map loss) / ofNat length
    let out ← write? (gaps xs.length) length (strength averageGain averageLoss)
    let averages := (averageGain, averageLoss)
    ((places length steps.length).foldlM (rsiStep length steps) (averages, out)).map Prod.snd

section Rsi

variable {length i : ℕ} {xs steps : List α} {change : α}

/-- Two averages that are smoothed side by side. -/
def smoothBoth (length : ℕ) (averages : α × α) (change : α) : α × α :=
  ((averages.1 * ofNat (length - 1) + gain change) / ofNat length,
    (averages.2 * ofNat (length - 1) + loss change) / ofNat length)

omit [Quantity α] in
/-- Two recurrences over the same things are one. -/
theorem zipWith_recurrence {γ : Type} (op : α → α → γ) (step step' : α → α → α) (f g : β → α)
    (first first' : α) (xs : List β) :
    List.zipWith op (recurrence step first (xs.map f)) (recurrence step' first' (xs.map g)) =
      (recurrence (fun s x => (step s.1 (f x), step' s.2 (g x))) (first, first') xs).map
        fun s => op s.1 s.2 := by
  induction xs generalizing first first' with
  | nil => rfl
  | cons x xs ih => exact congrArg (_ :: ·) (ih _ _)

theorem rsiStep_eq (hlength : 0 < length) (averages : α × α) (out : List α)
    (hchange : steps[i]? = some change) (hsize : steps.length < 2 ^ 64) :
    let next := smoothBoth length averages change
    rsiStep length steps (averages, out) i =
      (write? out (i + 1) (strength next.1 next.2)).map (Prod.mk next) := by
  obtain ⟨hi, -⟩ := List.getElem?_eq_some_iff.1 hchange
  simp only [rsiStep, hchange, smooth?_eq hlength, plus?_one hi hsize, Option.bind_eq_bind,
    Option.bind_some]
  exact Option.map_eq_bind.symm

/-- **The loop of the relative strength index.** -/
theorem rsi_eq (hsize : xs.length < 2 ^ 64) (length : ℕ) :
    rsi length xs = some (Indicator.rsi length xs) := by
  rw [rsi]
  split
  next hshort => exact congrArg some (if_pos hshort).symm
  next hlong =>
    have hsteps := length_changes xs
    have hslice : part? (changes xs) 0 length = some ((changes xs).take length) :=
      part?_of_le (Nat.zero_le _) (by omega)
    simp only [changes?_eq, hslice, Option.bind_eq_bind, Option.bind_some]
    rw [Indicator.rsi, if_neg hlong]
    dsimp only
    rw [smoothed, smoothed, ← List.map_take, ← List.map_take, ← List.map_drop, ← List.map_drop,
      zipWith_recurrence]
    have hinputs : ((changes xs).drop length).length = (changes xs).length - length :=
      List.length_drop
    refine foldlM_recurrence (s := (_, _)) (fun s => strength s.1 s.2) (by omega) (by omega)
      fun k x averages out hx => ?_
    rw [List.getElem?_drop] at hx
    rw [rsiStep_eq (by omega) averages out hx (by omega)]
    rw [show length + 1 + k = length + k + 1 by omega]
    rfl

end Rsi

/-- The ranges of bars. -/
def trueRanges? (bars : List (Bar α)) : Option (List α) :=
  (places 0 bars.length).mapM fun i => do
    let bar ← bars[i]?
    if i = 0 then return bar.high - bar.low
    else return bar.trueRange (← bars[← minus? i 1]?).close

theorem trueRanges?_eq {bars : List (Bar α)} : trueRanges? bars = some (trueRanges bars) := by
  refine mapM_places (causal_trueRanges.length_eq bars) fun i x hx => ?_
  rcases bars with _ | ⟨first, rest⟩
  · cases hx
  rcases i with _ | i
  · rw [trueRanges, List.getElem?_cons_zero] at hx
    exact hx
  · obtain ⟨hi, rfl⟩ := List.getElem?_eq_some_iff.1 hx
    rw [causal_trueRanges.length_eq] at hi
    have hbar := List.getElem?_eq_getElem hi
    have hold := List.getElem?_eq_getElem (Nat.lt_of_succ_lt hi)
    have hbefore : minus? (i + 1) 1 = some i := minus?_of_le (Nat.le_add_left 1 i)
    simp only [hbar, hbefore, Nat.succ_ne_zero, if_false, hold, trueRanges, List.getElem_cons_succ,
      List.getElem_zipWith, Option.bind_eq_bind, Option.bind_some]
    rfl

/-- One step of the average true range. -/
def atrStep (length : ℕ) (ranges : List α) (s : α × List α) (i : ℕ) : Option (α × List α) := do
  let average ← smooth? length s.1 (← ranges[i]?)
  return (average, ← write? s.2 i average)

/-- The average true range. -/
def atr (length : ℕ) (bars : List (Bar α)) : Option (List α) :=
  if length = 0 ∨ bars.length < length then some (gaps bars.length)
  else do
    let ranges ← trueRanges? bars
    let average := sum (← part? ranges 0 length) / ofNat length
    let out ← write? (gaps bars.length) (← minus? length 1) average
    ((places length bars.length).foldlM (atrStep length ranges) (average, out)).map Prod.snd

/-- **The loop of the average true range.** -/
theorem atr_eq {bars : List (Bar α)} (length : ℕ) :
    atr length bars = some (Indicator.atr length bars) := by
  rw [atr]
  split
  next hshort => exact congrArg some (if_pos hshort).symm
  next hlong =>
    have hranges : (trueRanges bars).length = bars.length := causal_trueRanges.length_eq bars
    have hslice : part? (trueRanges bars) 0 length = some ((trueRanges bars).take length) :=
      part?_of_le (Nat.zero_le _) (by omega)
    have hlast : minus? length 1 = some (length - 1) := minus?_of_le (by omega)
    simp only [trueRanges?_eq, hslice, hlast, Option.bind_eq_bind, Option.bind_some]
    rw [Indicator.atr, if_neg hlong, smoothed, ← List.map_id (recurrence _ _ _)]
    have hinputs : ((trueRanges bars).drop length).length = (trueRanges bars).length - length :=
      List.length_drop
    refine foldlM_recurrence id (by omega) (by omega) fun k x average out hx => ?_
    rw [List.getElem?_drop] at hx
    rw [show length - 1 + 1 + k = length + k by omega]
    simp only [atrStep, hx, smooth?_eq (show 0 < length by omega), Option.bind_eq_bind,
      Option.bind_some]
    exact Option.map_eq_bind.symm

/-! ### Others -/

/-- The change from an old number to that of a bar, which is looked at only if there is something to
compare it with. -/
def changeTo? (xs : List α) (old : α) (i : ℕ) : Option α :=
  if isZero old then some (ofInt 0)
  else do
    let x ← xs[i]?
    return (x - old) / old * ofInt 100

/-- One step of the rate of change. -/
def rocStep (length : ℕ) (xs out : List α) (i : ℕ) : Option (List α) := do
  let old ← xs[← minus? i length]?
  write? out i (← changeTo? xs old i)

/-- The rate of change. -/
def roc (length : ℕ) (xs : List α) : Option (List α) :=
  if length = 0 then some (gaps xs.length)
  else (places length xs.length).foldlM (rocStep length xs) (gaps xs.length)

/-- **The loop of the rate of change.** -/
theorem roc_eq (xs : List α) (length : ℕ) : roc length xs = some (Indicator.roc length xs) := by
  rw [roc]
  split
  next hzero => exact congrArg some (if_pos (.inl hzero)).symm
  next hpos =>
    refine foldlM_written ((causal_roc length).length_eq xs) (fun i hgap hi => ?_)
      fun i hle hi => ?_
    · rw [Indicator.roc]
      split
      next => exact getElem?_gaps hi
      next => exact getElem?_gaps_append _ hgap
    · have hx := List.getElem?_eq_getElem hi
      have hold : xs[i - length]? = some xs[i - length] := List.getElem?_eq_getElem (by omega)
      have hfinal : (Indicator.roc length xs)[i]? =
          some (percentChange xs[i] xs[i - length]) := by
        rw [Indicator.roc, if_neg (by omega), getElem?_gaps_append_of_le _ hle,
          List.getElem?_zipWith, List.getElem?_drop, Nat.add_sub_cancel' hle, hx, hold]
      have hchange : changeTo? xs xs[i - length] i = some (percentChange xs[i] xs[i - length]) := by
        rw [changeTo?, percentChange, hx]
        split <;> rfl
      simp only [rocStep, minus?_of_le hle, hold, hchange, Option.bind_eq_bind, Option.bind_some]
      exact write?_written hfinal

/-- The total after the volume of a bar is counted towards the direction of the close. -/
def addVolume? (bars : List (Bar α)) (total : α) (i : ℕ) : Option α := do
  let bar ← bars[i]?
  if i = 0 then return bar.volumeQuantity
  if lt (← bars[← minus? i 1]?).close bar.close then return total + bar.volumeQuantity
  if lt bar.close (← bars[← minus? i 1]?).close then return total - bar.volumeQuantity
  return total

/-- One step of the on-balance volume. -/
def obvStep (bars : List (Bar α)) (s : α × List α) (i : ℕ) : Option (α × List α) := do
  let total ← addVolume? bars s.1 i
  return (total, s.2 ++ [total])

section Obv

variable {bars : List (Bar α)}

theorem addVolume?_zero {bar : Bar α} (hbar : bars[0]? = some bar) (total : α) :
    addVolume? bars total 0 = some bar.volumeQuantity := by
  rw [addVolume?, hbar]
  rfl

theorem addVolume?_succ {i : ℕ} {bar old : Bar α} (hbar : bars[i + 1]? = some bar)
    (hold : bars[i]? = some old) (total : α) :
    addVolume? bars total (i + 1) = some (addVolume total (bar, old)) := by
  have hbefore : minus? (i + 1) 1 = some i := minus?_of_le (Nat.le_add_left 1 i)
  simp only [addVolume?, hbar, hbefore, hold, Nat.succ_ne_zero, if_false, addVolume,
    Option.bind_eq_bind, Option.bind_some]
  split_ifs <;> rfl

theorem getElem?_obv_zero {bar : Bar α} (hbar : bars[0]? = some bar) :
    (Indicator.obv bars)[0]? = some bar.volumeQuantity := by
  rcases bars with _ | ⟨first, rest⟩
  · cases hbar
  · obtain rfl : first = bar := Option.some.inj hbar
    exact getElem?_recurrence_zero _ _ _

theorem getElem?_obv_succ {i : ℕ} {bar old : Bar α} {total : α} (hbar : bars[i + 1]? = some bar)
    (hold : bars[i]? = some old) (htotal : (Indicator.obv bars)[i]? = some total) :
    (Indicator.obv bars)[i + 1]? = some (addVolume total (bar, old)) := by
  rcases bars with _ | ⟨first, rest⟩
  · cases hbar
  · have hstep : (rest.zip (first :: rest))[i]? = some (bar, old) :=
      List.getElem?_zip_eq_some.2 ⟨hbar, hold⟩
    rw [Indicator.obv] at htotal ⊢
    rw [getElem?_recurrence_succ _ hstep, htotal, Option.map_some]

/-- The total before a bar. -/
def totalBefore (bars : List (Bar α)) : ℕ → α
  | 0 => ofInt 0
  | i + 1 => (Indicator.obv bars).getD i (ofInt 0)

theorem obvStep_totalBefore {i : ℕ} (hi : i < bars.length) :
    obvStep bars (totalBefore bars i, (Indicator.obv bars).take i) i =
      some (totalBefore bars (i + 1), (Indicator.obv bars).take (i + 1)) := by
  have hstep : ∀ total, addVolume? bars (totalBefore bars i) i = some total →
      (Indicator.obv bars)[i]? = some total →
      obvStep bars (totalBefore bars i, (Indicator.obv bars).take i) i =
        some (totalBefore bars (i + 1), (Indicator.obv bars).take (i + 1)) := by
    intro total hadd htotal
    rw [obvStep, hadd, totalBefore, List.getD_eq_getElem?_getD, htotal, List.take_add_one, htotal]
    rfl
  have hbar := List.getElem?_eq_getElem hi
  rcases i with _ | i
  · exact hstep _ (addVolume?_zero hbar _) (getElem?_obv_zero hbar)
  · have hold := List.getElem?_eq_getElem (Nat.lt_of_succ_lt hi)
    have hlength : i < (Indicator.obv bars).length := by
      rw [causal_obv.length_eq]
      exact Nat.lt_of_succ_lt hi
    have htotal := List.getElem?_eq_getElem hlength
    have hbefore : totalBefore bars (i + 1) = (Indicator.obv bars)[i] := by
      rw [totalBefore, List.getD_eq_getElem?_getD, htotal, Option.getD_some]
    exact hstep _ (addVolume?_succ hbar hold _) (hbefore ▸ getElem?_obv_succ hbar hold htotal)

end Obv

/-- The on-balance volume. -/
def obv (bars : List (Bar α)) : Option (List α) :=
  ((places 0 bars.length).foldlM (obvStep bars) (ofInt 0, [])).map Prod.snd

/-- **The loop of the on-balance volume.** -/
theorem obv_eq (bars : List (Bar α)) : obv bars = some (Indicator.obv bars) := by
  have hloop := foldlM_places 0 bars.length
    (fun i => (totalBefore bars i, (Indicator.obv bars).take i))
    fun i _ hi => obvStep_totalBefore hi
  rw [Nat.min_eq_left (Nat.zero_le _), ← causal_obv.length_eq bars, List.take_length,
    causal_obv.length_eq] at hloop
  exact congrArg (Option.map Prod.snd) hloop

end TradeSignals.Looped
