import Mathlib.Algebra.Group.Nat.Defs
import Mathlib.Data.List.Forall2
import TradeSignals.Proofs.Places
import TradeSignals.Proofs.Signals.Causal
import TradeSignals.Proofs.Signals.Reading

/-!
# Signals computed by index

The signals of a condition are given here once more, in the way in which they are computed bar
by bar: flags and labels are two columns, every number is read from its place in a list, every
flag and every label is written to its place, and places are words that are added and
subtracted. Each of these steps can fail, if a place lies outside its list or a word would wrap
around (`TradeSignals.Indexed.evaluate`).

None of them ever does, as long as all numbers that a table keeps are columns of its size, and
then the columns that come out are the flags and the labels of the signals
(`TradeSignals.Indexed.mirrors_evaluate`). For series this is seen place by place. A loop that
writes a column leaves behind it the places that it has written and before it those that it has
not (`TradeSignals.Indexed.mix`), and that is what is carried along the loops.
-/

namespace TradeSignals

namespace Indexed

variable {α β γ : Type}

/-! ### Flags and labels -/

/-- Flags and labels as two columns. -/
structure Columns where
  /-- On which bars something is signalled. -/
  flags : List Bool
  /-- What is signalled there. -/
  labels : List (Option String)
deriving DecidableEq

/-- The same label wherever a flag is set. -/
def Columns.ofFlags (flags : List Bool) (label : String) : Columns :=
  ⟨flags, flags.map fun on => if on then some label else none⟩

/-- Columns without signals. -/
def Columns.blank (size : ℕ) : Columns :=
  ⟨List.replicate size false, List.replicate size none⟩

/-- The columns of signals. -/
def Columns.ofSignals (signals : Signals) : Columns := ⟨signals.flags, signals⟩

/-! ### Signals of series -/

/-- On which bars two series cross. -/
def crossings (crossed : Float → Float → Float → Float → Bool) (a b : List Float) :
    Option (List Bool) :=
  (places 0 a.length).mapM fun i => do
    if i = 0 then return false
    let j ← minus? i 1
    return crossed (← a[j]?) (← b[j]?) (← a[i]?) (← b[i]?)

/-- On which bars two series stand in a relation. -/
def related (relation : Relation) (a b : List Float) : Option (List Bool) :=
  match relation with
  | .above => some ((a.zip b).map fun p => decide (p.1 > p.2))
  | .below => some ((a.zip b).map fun p => decide (p.1 < p.2))
  | .crossedAbove =>
    crossings (fun a b a' b' => decide (a < b) && decide (a' > b')) a b
  | .crossedBelow =>
    crossings (fun a b a' b' => decide (a > b) && decide (a' < b')) a b

/-- On which bars a series has changed by so many percent. -/
def changed (percent : Float) (days : ℕ) (values : List Float) : Option (List Bool) :=
  (places 0 values.length).mapM fun i => do
    if decide (i < days) || percent == 0 then return false
    let base ← values[← minus? i days]?
    if base == 0 || base.isNaN then return false
    return Signals.changedBy percent base (← values[i]?)

/-- On which bars a series has been going one way. -/
def trending (direction : Direction) (days : ℕ) (values : List Float) : Option (List Bool) :=
  (places 0 values.length).mapM fun i => do
    if days ≤ i then
      let first ← minus? (← plus? i 1) days
      (places first (i + 1)).allM fun j => do
        return Signals.goes direction (← values[← minus? j 1]?) (← values[j]?)
    else return false

/-! ### Signals of signals -/

/-- Writes whether all of several conditions hold on a bar, and their labels if so. -/
def join (results : List Columns) (out : Columns) (i : ℕ) : Option Columns := do
  let on ← if ← out.flags[i]? then results.allM (·.flags[i]?) else pure false
  let flags ← write? out.flags i on
  if on then
    let labels ← results.mapM (·.labels[i]?)
    let label := "AND(" ++ ", ".intercalate (labels.filterMap id) ++ ")"
    return ⟨flags, ← write? out.labels i (some label)⟩
  else return ⟨flags, out.labels⟩

/-- Where all of several conditions hold. -/
def all (size : ℕ) (results : List Columns) : Option Columns :=
  (places 0 size).foldlM (join results)
    ⟨List.replicate size (!results.isEmpty), List.replicate size none⟩

/-- Writes signals over others. -/
def overwrite (size : ℕ) (out result : Columns) : Option Columns :=
  (places 0 size).foldlM (fun out i => do
      if ← result.flags[i]? then
        return ⟨← write? out.flags i true, ← write? out.labels i (← result.labels[i]?)⟩
      else return out)
    out

/-- Where one of several conditions holds. -/
def any (size : ℕ) (results : List Columns) : Option Columns :=
  results.foldlM (overwrite size) (.blank size)

/-- Signals so many bars later. -/
def delayed (days : ℕ) (inner : Columns) : Option Columns :=
  (places days inner.flags.length).foldlM (fun out i => do
      let flags ← write? out.flags i (← inner.flags[← minus? i days]?)
      let label := (← inner.labels[← minus? i days]?).map
        fun label => s!"AfterXDaysSignal({days}, {label})"
      return ⟨flags, ← write? out.labels i label⟩)
    (.blank inner.flags.length)

/-! ### Evaluation -/

section Evaluate

variable {m : Type → Type} [Monad m]

/-- A step that can fail. -/
def checked (x : Option α) : OptionT (StateT BarTable m) α := .mk (pure x)

/-- A step that only the table and the source take part in. -/
def plain (x : StateT BarTable m α) : OptionT (StateT BarTable m) α := .lift x

mutual

/-- **Evaluates a condition** over the table, by index. -/
def evaluate (source : SeriesSource m) : Condition → OptionT (StateT BarTable m) Columns
  | .comparison relation first second => do
    let a ← plain (BarTable.resolve source first)
    let b ← plain (BarTable.resolve source second)
    let flags ← checked (related relation a b)
    return .ofFlags flags (signalLabel relation.signalName [first.text, second.text])
  | .all conditions => do
    let results ← evaluateAll source conditions
    let t ← plain get
    checked (all t.size results)
  | .any conditions => do
    let results ← evaluateAll source conditions
    let t ← plain get
    checked (any t.size results)
  | .after base days => do
    let inner ← evaluate source base
    checked (delayed days.toNat inner)
  | .changeOver s percent days => do
    let values ← plain (BarTable.resolve source s)
    let flags ← checked (changed percent days.toNat values)
    return .ofFlags flags
      (signalLabel "ChangeOfXPercentPerYDaysSignal"
        [s.text, NumberLayout.canonical.text percent, toString days])
  | .change s percent => do
    let values ← plain (BarTable.resolve source s)
    let flags ← checked (changed percent 1 values)
    return .ofFlags flags
      (signalLabel "IntraIntervalChangeOfXPercentSignal"
        [s.text, NumberLayout.canonical.text percent])
  | .trend direction s days => do
    let values ← plain (BarTable.resolve source s)
    let flags ← checked (trending direction days.toNat values)
    return .ofFlags flags (signalLabel direction.signalName [s.text, toString days])

/-- Evaluates several conditions, one after the other. -/
def evaluateAll (source : SeriesSource m) :
    List Condition → OptionT (StateT BarTable m) (List Columns)
  | [] => return []
  | c :: rest => do
    let columns ← evaluate source c
    let more ← evaluateAll source rest
    return columns :: more

end

end Evaluate

/-! ### Signals of series, place by place -/

/-- What is known of a step from one bar to the next. -/
theorem getElem?_againstPrevious (holds : α → α → Bool) (xs : List α) (i : ℕ) :
    (Signals.againstPrevious holds xs)[i]? = xs[i]?.map fun now =>
      if i = 0 then false else (xs[i - 1]?.map fun before => holds before now).getD false := by
  rcases xs with _ | ⟨first, rest⟩
  · rfl
  · rcases i with _ | j
    · rfl
    · rw [Signals.againstPrevious, List.getElem?_cons_succ, List.getElem?_zipWith,
        List.getElem?_cons_succ, Nat.add_sub_cancel]
      rcases hnow : rest[j]? with _ | now
      · rfl
      · -- The bar before a bar is there.
        obtain ⟨hj, -⟩ := List.getElem?_eq_some_iff.1 hnow
        rw [List.getElem?_eq_getElem (l := first :: rest) (Nat.lt_succ_of_lt hj)]
        rfl

/-- Two columns of the same size are paired up without gaps. -/
theorem pairs_eq_zip {a b : List Float} (h : b.length = a.length) :
    Signals.pairs a b = a.zip b := by
  rw [Signals.pairs, Column.fit_of_length h]

theorem crossings_eq {crossed : Float → Float → Float → Float → Bool} {a b : List Float}
    (h : b.length = a.length) : crossings crossed a b =
      some (Signals.againstPrevious (fun p q => crossed p.1 p.2 q.1 q.2) (Signals.pairs a b)) := by
  rw [pairs_eq_zip h]
  refine mapM_places ?_ fun i on hon => ?_
  · rw [(Signals.causal_againstPrevious _).length_eq, List.length_zip, h, Nat.min_self]
  · rw [getElem?_againstPrevious] at hon
    obtain ⟨⟨x, y⟩, hnow, rfl⟩ := Option.map_eq_some_iff.1 hon
    obtain ⟨ha, hb⟩ := List.getElem?_zip_eq_some.1 hnow
    rcases i with _ | j
    · rfl
    · obtain ⟨hj, -⟩ := List.getElem?_eq_some_iff.1 hnow
      obtain ⟨⟨x', y'⟩, hbefore⟩ : ∃ p, (a.zip b)[j]? = some p :=
        ⟨_, List.getElem?_eq_getElem (Nat.lt_of_succ_lt hj)⟩
      obtain ⟨ha', hb'⟩ := List.getElem?_zip_eq_some.1 hbefore
      have hminus : minus? (j + 1) 1 = some j := if_pos (Nat.le_add_left 1 j)
      rw [if_neg (Nat.succ_ne_zero j), if_neg (Nat.succ_ne_zero j), hminus, Nat.add_sub_cancel,
        hbefore]
      simp only [Option.bind_eq_bind, Option.bind_some, ha, hb, ha', hb']
      rfl

/-- **No place is missed** when two series of the same size are compared. -/
theorem related_eq (relation : Relation) {a b : List Float} (h : b.length = a.length) :
    related relation a b = some (Signals.related relation a b) := by
  cases relation with
  | above => rfl
  | below => rfl
  | crossedAbove => exact crossings_eq h
  | crossedBelow => exact crossings_eq h

theorem getElem?_changed (percent : Float) (days : ℕ) (values : List Float) (i : ℕ) :
    (Signals.changed percent days values)[i]? = values[i]?.map fun now =>
      if i < days then false
      else (values[i - days]?.map fun base => Signals.changedBy percent base now).getD false := by
  rw [Signals.changed]
  rcases Nat.lt_or_ge i (min days values.length) with hi | hi
  · rw [List.getElem?_append_left (by rwa [List.length_replicate]),
      List.getElem?_replicate_of_lt hi, List.getElem?_eq_getElem (by omega : i < values.length),
      Option.map_some, if_pos (by omega)]
  · rw [List.getElem?_append_right (by rwa [List.length_replicate]), List.length_replicate,
      List.getElem?_zipWith, List.getElem?_drop]
    rcases Nat.lt_or_ge i values.length with hlength | hlength
    · rw [Nat.min_eq_left (by omega), Nat.add_sub_cancel' (by omega),
        List.getElem?_eq_getElem hlength, List.getElem?_eq_getElem (by omega : i - days < _),
        Option.map_some, if_neg (by omega)]
      rfl
    · rw [List.getElem?_eq_none (by omega : values.length ≤ days + _),
        List.getElem?_eq_none hlength]
      rfl

theorem changed_eq (percent : Float) (days : ℕ) (values : List Float) :
    changed percent days values = some (Signals.changed percent days values) := by
  refine mapM_places ((Signals.causal_changed percent days).length_eq values) fun i on hon => ?_
  rw [getElem?_changed] at hon
  obtain ⟨now, hnow, rfl⟩ := Option.map_eq_some_iff.1 hon
  by_cases hdays : i < days
  · rw [if_pos hdays, decide_eq_true hdays, Bool.true_or, if_pos rfl]
    rfl
  · obtain ⟨hi, -⟩ := List.getElem?_eq_some_iff.1 hnow
    obtain ⟨base, hbase⟩ : ∃ base, values[i - days]? = some base :=
      ⟨_, List.getElem?_eq_getElem (by omega)⟩
    have hminus : minus? i days = some (i - days) := if_pos (by omega)
    rw [if_neg hdays, decide_eq_false hdays, Bool.false_or, hminus]
    simp only [Option.bind_eq_bind, Option.bind_some, hbase, hnow, Option.map_some,
      Option.getD_some]
    -- The two tests that are made on the way are made again of the change.
    by_cases hpercent : (percent == 0) = true
    · rw [if_pos hpercent, Signals.changedBy, hpercent]
      rfl
    · by_cases hmissing : (base == 0 || base.isNaN) = true
      · rw [if_neg hpercent, if_pos hmissing, Signals.changedBy, Bool.or_assoc, hmissing,
          Bool.or_true, if_pos rfl]
        rfl
      · rw [if_neg hpercent, if_neg hmissing]
        rfl

/-! ### Trends, place by place -/

/-- Does the step to a place go one way? -/
def goesAt (direction : Direction) (values : List Float) (j : ℕ) : Bool :=
  match values[j - 1]?, values[j]? with
  | some before, some now => Signals.goes direction before now
  | _, _ => false

/-- A streak goes on by a step, or ends. -/
theorem getElem?_streaksFrom (direction : Direction) (before : Float) (count : ℕ)
    (values : List Float) (i : ℕ) (hi : i < values.length) :
    (Signals.streaksFrom direction before count values)[i]? =
      (count :: Signals.streaksFrom direction before count values)[i]?.map fun count =>
        if goesAt direction (before :: values) (i + 1) then count + 1 else 0 := by
  induction values generalizing before count i with
  | nil => cases hi
  | cons now rest ih =>
    rcases i with _ | i
    · rfl
    · exact ih now _ i (Nat.lt_of_succ_lt_succ hi)

theorem getElem?_streaks_succ (direction : Direction) (values : List Float) {i : ℕ}
    (hi : i + 1 < values.length) : (Signals.streaks direction values)[i + 1]? =
      (Signals.streaks direction values)[i]?.map fun count =>
        if goesAt direction values (i + 1) then count + 1 else 0 := by
  rcases values with _ | ⟨first, rest⟩
  · cases hi
  · exact getElem?_streaksFrom direction first 0 rest i (Nat.lt_of_succ_lt_succ hi)

/-- **How long a streak is:** it has so many steps if there are so many and all of them go one
way. -/
theorem le_streak_iff (direction : Direction) {values : List Float} {i count : ℕ}
    (h : (Signals.streaks direction values)[i]? = some count) (days : ℕ) :
    days ≤ count ↔ days ≤ i ∧ ∀ j, i + 1 - days ≤ j → j ≤ i → goesAt direction values j = true := by
  have hlength := (Signals.causal_streaks direction).length_eq values
  induction i generalizing count days with
  | zero =>
    rcases values with _ | ⟨first, rest⟩
    · cases h
    · cases h
      refine ⟨fun hdays => ⟨hdays, fun j hj hj' => ?_⟩, fun hdays => hdays.1⟩
      omega
  | succ i ih =>
    obtain ⟨hi, -⟩ := List.getElem?_eq_some_iff.1 h
    rw [getElem?_streaks_succ direction values (hlength ▸ hi)] at h
    obtain ⟨before, hbefore, rfl⟩ := Option.map_eq_some_iff.1 h
    rcases days with _ | days
    · refine ⟨fun _ => ⟨Nat.zero_le _, fun j hj hj' => ?_⟩, fun _ => Nat.zero_le _⟩
      omega
    by_cases hstep : goesAt direction values (i + 1) = true
    · have hiff : days ≤ before ↔ _ := ih hbefore days
      rw [if_pos hstep, Nat.succ_le_succ_iff, hiff, Nat.succ_le_succ_iff]
      refine and_congr_right fun _ => ⟨fun hall j hj hj' => ?_, fun hall j hj hj' => ?_⟩
      · rcases Nat.eq_or_lt_of_le hj' with rfl | hlt
        · exact hstep
        · exact hall j (by omega) (by omega)
      · exact hall j (by omega) (by omega)
    · rw [if_neg hstep]
      refine ⟨fun hdays => absurd hdays (Nat.not_succ_le_zero _), fun hall => ?_⟩
      exact absurd (hall.2 (i + 1) (by omega) (Nat.le_refl _)) hstep

theorem trending_eq (direction : Direction) (days : ℕ) {values : List Float}
    (hsize : values.length < 2 ^ 64) :
    trending direction days values = some (Signals.trending direction days values) := by
  refine mapM_places ((Signals.causal_trending direction days).length_eq values)
    fun i on hon => ?_
  rw [Signals.trending, List.getElem?_map] at hon
  obtain ⟨count, hcount, rfl⟩ := Option.map_eq_some_iff.1 hon
  have hiff := le_streak_iff direction hcount days
  obtain ⟨hi, -⟩ := List.getElem?_eq_some_iff.1 hcount
  rw [(Signals.causal_streaks direction).length_eq] at hi
  by_cases hdays : days ≤ i
  · have hplus : plus? i 1 = some (i + 1) := if_pos (by omega)
    have hminus : minus? (i + 1) days = some (i + 1 - days) := if_pos (by omega)
    rw [if_pos hdays, hplus]
    simp only [Option.bind_eq_bind, Option.bind_some, hminus]
    -- Each step that is looked at has both its bars.
    rw [allM_eq_some (q := goesAt direction values)]
    · congr 1
      rw [Bool.eq_iff_iff, List.all_eq_true, decide_eq_true_iff, hiff]
      simp only [places, List.mem_range'_1]
      exact ⟨fun hall => ⟨hdays, fun j hj hj' => hall j ⟨hj, by omega⟩⟩,
        fun hall j hj => hall.2 j hj.1 (by omega)⟩
    · intro j hj
      rw [places, List.mem_range'_1] at hj
      have hprevious : minus? j 1 = some (j - 1) := if_pos (by omega)
      rw [hprevious, goesAt, List.getElem?_eq_getElem (by omega : j < values.length)]
      simp only [Option.bind_some]
      rw [List.getElem?_eq_getElem (by omega : j - 1 < values.length)]
      rfl
  · rw [if_neg hdays, decide_eq_false fun hle => hdays (hiff.1 hle).1]
    rfl

/-! ### Signals of signals, place by place -/

/-- A computation of each element that never fails. -/
theorem mapM_eq_some {f : α → Option β} {g : α → β} {xs : List α}
    (h : ∀ x ∈ xs, f x = some (g x)) : xs.mapM f = some (xs.map g) := by
  induction xs with
  | nil => rfl
  | cons x xs ih =>
    rw [List.mapM_cons, h x List.mem_cons_self, ih fun y hy => h y (List.mem_cons_of_mem x hy)]
    rfl

/-- Values that may be missing: all of them, if all are there. -/
theorem mapM_id_eq (xs : List (Option α)) :
    xs.mapM id = if xs.all Option.isSome = true then some (xs.filterMap id) else none := by
  induction xs with
  | nil => rfl
  | cons x xs ih =>
    rw [List.mapM_cons, ih]
    rcases x with _ | x
    · rfl
    · rw [List.all_cons, Option.isSome_some, Bool.true_and]
      split <;> rfl

theorem length_flags (signals : Signals) : signals.flags.length = signals.length :=
  List.length_map _

theorem getElem?_flags (signals : Signals) (i : ℕ) :
    signals.flags[i]? = signals[i]?.map Option.isSome :=
  List.getElem?_map

/-! ### Columns of signals that are being written -/

/-- The columns into which signals are written, as they are at a place. -/
def Columns.writtenUpTo (i : ℕ) (done : Signals) (start : Columns) : Columns :=
  ⟨mix i done.flags start.flags, mix i done start.labels⟩

/-- There is a place in both columns for each of the signals. -/
structure Columns.Holds (start : Columns) (done : Signals) : Prop where
  /-- The places of the flags. -/
  flags : done.length = start.flags.length
  /-- The places of the labels. -/
  labels : done.length = start.labels.length

namespace Columns

variable {done : Signals} {start : Columns} {i : ℕ}

theorem holds_ofSignals {before : Signals} (h : done.length = before.length) :
    (ofSignals before).Holds done :=
  ⟨h.trans (length_flags before).symm, h⟩

theorem holds_replicate {size : ℕ} (h : done.length = size) (on : Bool) :
    Holds ⟨List.replicate size on, List.replicate size none⟩ done :=
  ⟨h.trans List.length_replicate.symm, h.trans List.length_replicate.symm⟩

/-- The next signal is written. -/
theorem Holds.write (h : start.Holds done) {label : Option String} (hi : done[i]? = some label) :
    write? (writtenUpTo i done start).flags i label.isSome =
        some (writtenUpTo (i + 1) done start).flags ∧
      write? (writtenUpTo i done start).labels i label =
        some (writtenUpTo (i + 1) done start).labels := by
  refine ⟨write?_mix ((length_flags done).trans h.flags) ?_, write?_mix h.labels hi⟩
  rw [getElem?_flags, hi]
  rfl

/-- If nothing is signalled, the flag is written and the missing label is left as it is. -/
theorem Holds.write_none (h : start.Holds done) (hi : done[i]? = some none)
    (hstart : start.labels[i]? = some none) :
    write? (writtenUpTo i done start).flags i false =
        some (writtenUpTo (i + 1) done start).flags ∧
      (writtenUpTo i done start).labels = (writtenUpTo (i + 1) done start).labels :=
  ⟨(h.write hi).1, (mix_succ_of_eq h.labels (hi.trans hstart.symm)).symm⟩

/-- A signal may be left alone if its flag and its label are right already. -/
theorem Holds.keep (h : start.Holds done) (hflag : done.flags[i]? = start.flags[i]?)
    (hi : done[i]? = start.labels[i]?) :
    writtenUpTo (i + 1) done start = writtenUpTo i done start := by
  rw [writtenUpTo, mix_succ_of_eq ((length_flags done).trans h.flags) hflag,
    mix_succ_of_eq h.labels hi]
  rfl

/-- **A loop that writes signals into columns,** from a place up to which they are right. -/
theorem Holds.foldlM_eq (h : start.Holds done) {step : Columns → ℕ → Option Columns} {first : ℕ}
    (hstart : ∀ i < first, done.flags[i]? = start.flags[i]? ∧ done[i]? = start.labels[i]?)
    (hstep : ∀ i, first ≤ i → i < done.length →
      step (writtenUpTo i done start) i = some (writtenUpTo (i + 1) done start)) :
    (places first done.length).foldlM step start = some (ofSignals done) := by
  have hflags := h.flags
  have hlabels := h.labels
  have hlength := length_flags done
  -- Up to the first place nothing is to be done.
  have hfirst : ∀ i ≤ first, writtenUpTo i done start = start := by
    intro i hi
    induction i with
    | zero => rfl
    | succ i ih =>
      rw [h.keep (hstart i hi).1 (hstart i hi).2, ih (Nat.le_of_succ_le hi)]
  have hloop := @foldlM_range' _ step (fun i => writtenUpTo i done start) first
    (done.length - first) fun i hi hi' => hstep i hi (by omega)
  rw [hfirst first (Nat.le_refl _)] at hloop
  rw [places, hloop, writtenUpTo, mix_of_le (by omega) (by omega), mix_of_le (by omega) (by omega)]
  rfl

end Columns

section Junctions

variable {size : ℕ}

theorem grown_self {xs : List α} (h : xs.length = size) : Grown size size xs xs :=
  ⟨h, h, List.prefix_rfl⟩

theorem length_all {results : List Signals} (h : ∀ s ∈ results, s.length = size) :
    (Signals.all size results).length = size :=
  (Signals.grown_all (Nat.le_refl size)
    (List.forall₂_same.2 fun s hs => grown_self (h s hs))).length_left

theorem length_any {results : List Signals} (h : ∀ s ∈ results, s.length = size) :
    (Signals.any size results).length = size :=
  (Signals.grown_any (Nat.le_refl size)
    (List.forall₂_same.2 fun s hs => grown_self (h s hs))).length_left

theorem getElem?_together {results : List Signals} (h : ∀ s ∈ results, s.length = size) {i : ℕ}
    (hi : i < size) : (Signals.together size results)[i]? =
      some ((results.map fun s => s[i]?.join).mapM id) := by
  induction results with
  | nil => exact List.getElem?_replicate_of_lt hi
  | cons s rest ih =>
    have hs := h s List.mem_cons_self
    rw [Signals.together, Column.fit_of_length hs, List.getElem?_zipWith,
      ih fun s hs => h s (List.mem_cons_of_mem _ hs), List.map_cons, List.mapM_cons,
      List.getElem?_eq_getElem (hs ▸ hi)]
    rfl

theorem getElem?_all {results : List Signals} (h : ∀ s ∈ results, s.length = size)
    (hne : results ≠ []) {i : ℕ} (hi : i < size) : (Signals.all size results)[i]? =
      some (((results.map fun s => s[i]?.join).mapM id).map
        fun labels => "AND(" ++ ", ".intercalate labels ++ ")") := by
  rw [Signals.all, if_neg hne, List.getElem?_map, getElem?_together h hi, Option.map_some]

/-- What several conditions signal on a bar, read place by place. -/
theorem read_columns {results : List Signals} (h : ∀ s ∈ results, s.length = size) {i : ℕ}
    (hi : i < size) :
    (results.map Columns.ofSignals).mapM (·.labels[i]?) =
        some (results.map fun s => s[i]?.join) ∧
      (results.map Columns.ofSignals).allM (·.flags[i]?) =
        some ((results.map fun s => s[i]?.join).all Option.isSome) := by
  have hsome : ∀ s ∈ results, s[i]? = some (s[i]?.join) := by
    intro s hs
    rw [List.getElem?_eq_getElem (by rw [h s hs]; exact hi)]
    rfl
  constructor
  · rw [mapM_eq_some (g := fun c => c.labels[i]?.join) (List.forall_mem_map.2 hsome),
      List.map_map]
    rfl
  · rw [allM_eq_some (q := fun c => (c.labels[i]?.join).isSome)
      (List.forall_mem_map.2 fun s hs => ?_), List.all_map, List.all_map]
    · rfl
    · refine (getElem?_flags s i).trans ?_
      rw [hsome s hs]
      rfl

/-- Of several conditions, of which there may be none, what holds on a bar. -/
theorem getElem?_all_eq_ite {results : List Signals} (h : ∀ s ∈ results, s.length = size) {i : ℕ}
    (hi : i < size) : (Signals.all size results)[i]? =
      some (if results = [] then none else ((results.map fun s => s[i]?.join).mapM id).map
        fun labels => "AND(" ++ ", ".intercalate labels ++ ")") := by
  by_cases hne : results = []
  · rw [if_pos hne, hne]
    exact List.getElem?_replicate_of_lt hi
  · rw [if_neg hne, getElem?_all h hne hi]

/-- **One bar of several conditions.** -/
theorem join_eq {results : List Signals} (h : ∀ s ∈ results, s.length = size) {i : ℕ}
    (hi : i < size) :
    let start : Columns := ⟨List.replicate size !results.isEmpty, List.replicate size none⟩
    join (results.map .ofSignals) (.writtenUpTo i (Signals.all size results) start) i =
      some (.writtenUpTo (i + 1) (Signals.all size results) start) := by
  intro start
  have hholds : start.Holds (Signals.all size results) := Columns.holds_replicate (length_all h) _
  have hdone := getElem?_all_eq_ite h hi
  have hlabel : start.labels[i]? = some none := List.getElem?_replicate_of_lt hi
  have hflag : (Columns.writtenUpTo i (Signals.all size results) start).flags[i]? =
      some !results.isEmpty := by
    refine (getElem?_mix ?_).trans (List.getElem?_replicate_of_lt hi)
    rw [length_flags, length_all h]
    exact Nat.le_of_lt hi
  obtain ⟨hread, htest⟩ := read_columns h hi
  rw [join]
  simp only [Option.bind_eq_bind, hflag, Option.bind_some, hread, htest]
  by_cases hempty : results = []
  · rw [if_pos hempty] at hdone
    obtain ⟨hwrite, hkeep⟩ := hholds.write_none hdone hlabel
    rw [if_neg (by simp [hempty])]
    change (write? _ i false).bind _ = _
    rw [hwrite, hkeep]
    rfl
  rw [if_neg hempty, mapM_id_eq] at hdone
  rw [if_pos (by simp [hempty])]
  by_cases hon : ((results.map fun s => s[i]?.join).all Option.isSome) = true
  · rw [if_pos hon, Option.map_some] at hdone
    obtain ⟨hwrite, hwrite'⟩ := hholds.write hdone
    rw [Option.isSome_some] at hwrite
    rw [hon, hwrite, Option.bind_some, if_pos rfl, hwrite']
    rfl
  · rw [if_neg hon, Option.map_none] at hdone
    obtain ⟨hwrite, hkeep⟩ := hholds.write_none hdone hlabel
    rw [Bool.not_eq_true] at hon
    rw [hon, hwrite, hkeep]
    rfl

/-- **The loop over the bars of several conditions** writes where all of them hold. -/
theorem all_eq {results : List Signals} (h : ∀ s ∈ results, s.length = size) :
    all size (results.map .ofSignals) = some (.ofSignals (Signals.all size results)) := by
  have hlength := length_all h
  have hloop := (Columns.holds_replicate hlength !results.isEmpty).foldlM_eq (by simp)
    fun i (_ : 0 ≤ i) hi => join_eq h (hlength ▸ hi)
  rwa [hlength, ← List.isEmpty_map (f := Columns.ofSignals)] at hloop

/-- Signals and those that are written over them. -/
def overwritten (before s : Signals) : Signals :=
  List.zipWith (fun before label => label.or before) before s

theorem length_overwritten {before s : Signals} (hbefore : before.length = size)
    (hs : s.length = size) : (overwritten before s).length = size := by
  rw [overwritten, List.length_zipWith, hbefore, hs, Nat.min_self]

theorem getElem?_overwritten {before s : Signals} {i : ℕ} {old label : Option String}
    (hold : before[i]? = some old) (hlabel : s[i]? = some label) :
    (overwritten before s)[i]? = some (label.or old) := by
  rw [overwritten, List.getElem?_zipWith, hold, hlabel]

/-- The loop that writes signals over others. -/
theorem overwrite_eq {before s : Signals} (hbefore : before.length = size)
    (hs : s.length = size) : overwrite size (.ofSignals before) (.ofSignals s) =
      some (.ofSignals (overwritten before s)) := by
  have hlength := length_overwritten hbefore hs
  have hholds : (Columns.ofSignals before).Holds (overwritten before s) :=
    Columns.holds_ofSignals (hlength.trans hbefore.symm)
  rw [overwrite, ← hlength]
  refine hholds.foldlM_eq (by simp) fun i _ hi => ?_
  rw [hlength] at hi
  obtain ⟨old, hold⟩ : ∃ old, before[i]? = some old :=
    ⟨_, List.getElem?_eq_getElem (hbefore.symm ▸ hi)⟩
  obtain ⟨label, hlabel⟩ : ∃ label, s[i]? = some label :=
    ⟨_, List.getElem?_eq_getElem (hs.symm ▸ hi)⟩
  have hdone := getElem?_overwritten hold hlabel
  have hflag : s.flags[i]? = some label.isSome := by
    rw [getElem?_flags, hlabel]
    rfl
  simp only [Columns.ofSignals, Option.bind_eq_bind, Option.bind_some, hflag, hlabel]
  rcases label with _ | label
  · -- Nothing is signalled, so what was written before is right.
    have hsame : (overwritten before s)[i]? = before[i]? := hdone.trans hold.symm
    have hkeep := hholds.keep (by rw [getElem?_flags, hsame]; exact (getElem?_flags before i).symm)
      hsame
    exact congrArg some hkeep.symm
  · have hlater : (overwritten before s)[i]? = some (some label) := hdone
    obtain ⟨hwrite, hwrite'⟩ := hholds.write hlater
    simp only [Columns.ofSignals, Option.isSome_some] at hwrite hwrite'
    rw [if_pos Option.isSome_some, hwrite, Option.bind_some, hwrite']
    rfl

/-- **The loop over several conditions** writes where one of them holds. -/
theorem any_eq {results : List Signals} (h : ∀ s ∈ results, s.length = size) :
    any size (results.map .ofSignals) = some (.ofSignals (Signals.any size results)) := by
  have hfold : ∀ {before : Signals}, before.length = size →
      (results.map Columns.ofSignals).foldlM (overwrite size) (.ofSignals before) =
        some (.ofSignals ((results.map (Column.fit size none)).foldl
          (List.zipWith fun before label => label.or before) before)) := by
    induction results with
    | nil => exact fun _ => rfl
    | cons s rest ih =>
      intro before hbefore
      have hs := h s List.mem_cons_self
      rw [List.map_cons, List.foldlM_cons, overwrite_eq hbefore hs, List.map_cons,
        List.foldl_cons, Column.fit_of_length hs]
      exact ih (fun s hs => h s (List.mem_cons_of_mem _ hs)) (length_overwritten hbefore hs)
  have hblank : Columns.blank size = .ofSignals (List.replicate size none) := by
    simp [Columns.blank, Columns.ofSignals, Signals.flags]
  rw [any, hblank]
  exact hfold List.length_replicate

end Junctions

theorem getElem?_delayed (days : ℕ) (s : Signals) (i : ℕ) :
    (Signals.delayed days s)[i]? = s[i]?.map fun _ => if i < days then none
      else (s[i - days]?.join).map fun label => s!"AfterXDaysSignal({days}, {label})" := by
  rw [Signals.delayed]
  rcases Nat.lt_or_ge i (min days s.length) with hi | hi
  · rw [List.getElem?_append_left (by rwa [List.length_replicate]),
      List.getElem?_replicate_of_lt hi, List.getElem?_eq_getElem (by omega : i < s.length),
      Option.map_some, if_pos (by omega)]
  · rw [List.getElem?_append_right (by rwa [List.length_replicate]), List.length_replicate,
      List.getElem?_map, List.getElem?_take]
    rcases Nat.lt_or_ge i s.length with hlength | hlength
    · rw [Nat.min_eq_left (by omega), if_pos (by omega), List.getElem?_eq_getElem hlength,
        List.getElem?_eq_getElem (by omega : i - days < s.length), Option.map_some,
        Option.map_some, if_neg (by omega)]
      rfl
    · rw [if_neg (by omega), List.getElem?_eq_none hlength]
      rfl

/-- **The loop over later bars** writes what was signalled so many bars before. -/
theorem delayed_eq (days : ℕ) (s : Signals) :
    delayed days (.ofSignals s) = some (.ofSignals (Signals.delayed days s)) := by
  have hlength := (Signals.causal_delayed days).length_eq s
  have hsize : (Columns.ofSignals s).flags.length = (Signals.delayed days s).length :=
    (length_flags s).trans hlength.symm
  have hholds : (Columns.blank (Signals.delayed days s).length).Holds (Signals.delayed days s) :=
    Columns.holds_replicate rfl false
  rw [delayed, hsize]
  refine hholds.foldlM_eq (fun i hi => ?_) fun i hdays hi => ?_
  · -- Before the first place nothing is signalled.
    rw [getElem?_flags, getElem?_delayed, Columns.blank, List.getElem?_replicate,
      List.getElem?_replicate, hlength]
    rcases Nat.lt_or_ge i s.length with hlt | hge
    · rw [List.getElem?_eq_getElem hlt, Option.map_some, if_pos hi, if_pos hlt, if_pos hlt]
      exact ⟨rfl, rfl⟩
    · rw [List.getElem?_eq_none hge, if_neg (Nat.not_lt.2 hge), if_neg (Nat.not_lt.2 hge)]
      exact ⟨rfl, rfl⟩
  · obtain ⟨label, hlabel⟩ : ∃ label, s[i - days]? = some label :=
      ⟨_, List.getElem?_eq_getElem (by omega)⟩
    have hflag : s.flags[i - days]? = some label.isSome := by
      rw [getElem?_flags, hlabel]
      rfl
    have hdone : (Signals.delayed days s)[i]? =
        some (label.map fun label => s!"AfterXDaysSignal({days}, {label})") := by
      rw [getElem?_delayed, List.getElem?_eq_getElem (by omega : i < s.length), Option.map_some,
        if_neg (by omega), hlabel]
      rfl
    have hminus : minus? i days = some (i - days) := if_pos hdays
    obtain ⟨hwrite, hwrite'⟩ := hholds.write hdone
    rw [Option.isSome_map] at hwrite
    simp only [Columns.ofSignals, Option.bind_eq_bind, hminus, Option.bind_some, hflag, hlabel,
      hwrite, hwrite']
    rfl

/-! ### Evaluation by index -/

section Mirrors

open BarTable

variable {σ : Type}

/-- A table of so many bars whose kept numbers are columns of this size. -/
structure Sized (size : ℕ) (t : BarTable) : Prop where
  /-- There are so many bars. -/
  size_eq : t.size = size
  /-- What is kept has this size. -/
  cache : ∀ key values, t.cache.get? key = some values → values.length = size

/-- **A computation that can fail does what another one does,** over tables of a size, and
gives a result in a relation to that of the other one. -/
def Mirrors {σ : Type} (size : ℕ) (R : β → γ → Prop)
    (x : OptionT (StateT BarTable (StateM σ)) β) (y : StateT BarTable (StateM σ) γ) : Prop :=
  ∀ t k, Sized size t → ∃ b, x.run t k = ((some b, (y t k).1.2), (y t k).2) ∧
    R b (y t k).1.1 ∧ Sized size (y t k).1.2

variable {size : ℕ}

theorem Mirrors.pure {R : β → γ → Prop} {b : β} {c : γ} (h : R b c) :
    Mirrors (σ := σ) size R (Pure.pure b) (Pure.pure c) :=
  fun _ _ ht => ⟨b, rfl, h, ht⟩

/-- What comes after a step that did not fail. -/
theorem run_bind_of_run {x : OptionT (StateT BarTable (StateM σ)) β} {t u : BarTable} {k l : σ}
    {b : β} (h : x.run t k = ((some b, u), l))
    (f : β → OptionT (StateT BarTable (StateM σ)) γ) : (x >>= f).run t k = (f b).run u l := by
  have hbind : (x >>= f).run t k = ((x.run t k).1.1.elim (Pure.pure none) fun b => (f b).run)
      (x.run t k).1.2 (x.run t k).2 := by
    rw [OptionT.run_bind]
    rfl
  rw [hbind, h]
  rfl

theorem Mirrors.bind {β' γ' : Type} {R : β → γ → Prop} {S : β' → γ' → Prop}
    {x : OptionT (StateT BarTable (StateM σ)) β} {y : StateT BarTable (StateM σ) γ}
    {f : β → OptionT (StateT BarTable (StateM σ)) β'} {g : γ → StateT BarTable (StateM σ) γ'}
    (hx : Mirrors size R x y) (hf : ∀ b c, R b c → Mirrors size S (f b) (g c)) :
    Mirrors size S (x >>= f) (y >>= g) := by
  intro t k ht
  obtain ⟨b, hrun, hR, hsized⟩ := hx t k ht
  obtain ⟨b', hrun', hS, hsized'⟩ := hf b (y t k).1.1 hR (y t k).1.2 (y t k).2 hsized
  exact ⟨b', (run_bind_of_run hrun f).trans hrun', hS, hsized'⟩

/-- A step that cannot fail. -/
theorem Mirrors.plain {R : β → Prop} {x : StateT BarTable (StateM σ) β}
    (h : ∀ t k, Sized size t → R (x t k).1.1 ∧ Sized size (x t k).1.2) :
    Mirrors size (fun b c => b = c ∧ R c) (plain x) x :=
  fun t k ht => ⟨(x t k).1.1, rfl, ⟨rfl, (h t k ht).1⟩, (h t k ht).2⟩

/-- A step that could fail, and does not. -/
theorem Mirrors.checked {R : β → γ → Prop} {α : Type} {a : α} {x : Option α}
    {f : α → OptionT (StateT BarTable (StateM σ)) β} {y : StateT BarTable (StateM σ) γ}
    (hx : x = some a) (h : Mirrors size R (f a) y) : Mirrors size R (checked x >>= f) y := by
  subst hx
  intro t k ht
  obtain ⟨b, hrun, hR⟩ := h t k ht
  exact ⟨b, (run_bind_of_run rfl f).trans hrun, hR⟩

/-- The same for the last step. -/
theorem Mirrors.checked_last {R : β → γ → Prop} {b : β} {c : γ} {x : Option β}
    (hx : x = some b) (h : R b c) : Mirrors (σ := σ) size R (Indexed.checked x) (Pure.pure c) := by
  subst hx
  exact .pure h

theorem Sized.keep {t : BarTable} (h : Sized size t) (key : String) {values : List Float}
    (hvalues : values.length = size) : Sized size (t.keep key values) where
  size_eq := h.size_eq
  cache other found hfound := by
    change (t.cache.put key values).get? other = some found at hfound
    rw [Dictionary.get?_put] at hfound
    split at hfound
    · exact Option.some.inj hfound ▸ hvalues
    · exact h.cache other found hfound

/-- Whatever a source answers, the numbers of a series are a column of the table's size. -/
theorem mirrors_resolve (source : SeriesSource (StateM σ)) (s : Series) :
    Mirrors size (fun a b : List Float => a = b ∧ b.length = size) (plain (resolve source s))
      (resolve source s) := by
  refine .plain fun t k ht => ?_
  rw [run_resolve]
  rcases hcache : t.cache.get? s.text with _ | values
  · have hlength : (Column.fit t.size Quantity.missing (source s t k).1).length = size :=
      (Column.length_fit _ _ _).trans ht.size_eq
    exact ⟨hlength, ht.keep s.text hlength⟩
  · exact ⟨ht.cache _ _ hcache, ht⟩

theorem mirrors_get : Mirrors (σ := σ) size (fun t u => t = u ∧ u.size = size) (plain get) get :=
  .plain fun _ _ ht => ⟨ht.size_eq, ht⟩

/-- Columns of signals, one for each bar. -/
def Carries (size : ℕ) (columns : Columns) (signals : Signals) : Prop :=
  columns = .ofSignals signals ∧ signals.length = size

theorem carries_mark {flags : List Bool} (h : flags.length = size) (label : String) :
    Carries size (.ofFlags flags label) (.mark label flags) := by
  refine ⟨?_, by rw [Signals.mark, List.length_map, h]⟩
  have hflags : (Signals.mark label flags).flags = flags := by
    rw [Signals.mark, Signals.flags, List.map_map]
    refine (List.map_congr_left fun on _ => ?_).trans flags.map_id
    cases on <;> rfl
  rw [Columns.ofSignals, hflags]
  rfl

/-- Several columns of signals. -/
theorem columns_eq {results : List Columns} {signals : List Signals}
    (h : List.Forall₂ (Carries size) results signals) :
    results = signals.map .ofSignals ∧ ∀ s ∈ signals, s.length = size := by
  induction h with
  | nil => exact ⟨rfl, nofun⟩
  | cons hfirst _ ih =>
    obtain ⟨rfl, hlength⟩ := hfirst
    obtain ⟨rfl, hrest⟩ := ih
    exact ⟨rfl, List.forall_mem_cons.2 ⟨hlength, hrest⟩⟩

variable (source : SeriesSource (StateM σ))

theorem mirrors_evaluateAll {cs : List Condition} (h : ∀ c ∈ cs, Mirrors size (Carries size)
    (evaluate source c) (BarTable.evaluate source c)) :
    Mirrors size (List.Forall₂ (Carries size)) (evaluateAll source cs)
      (BarTable.evaluateAll source cs) := by
  induction cs with
  | nil => exact .pure .nil
  | cons c cs ih =>
    refine (h c List.mem_cons_self).bind fun columns signals hfirst => ?_
    refine (ih fun d hd => h d (List.mem_cons_of_mem c hd)).bind fun rest more hrest => ?_
    exact .pure (.cons hfirst hrest)

/-- A condition on one series. -/
theorem mirrors_marked {f : List Float → Option (List Bool)} {g : List Float → List Bool}
    (h : ∀ values, values.length = size → f values = some (g values) ∧ (g values).length = size)
    (s : Series) (label : String) : Mirrors size (Carries size)
      (do
        let values ← plain (resolve source s)
        let flags ← checked (f values)
        return .ofFlags flags label)
      (do
        let values ← resolve source s
        return .mark label (g values)) := by
  refine (mirrors_resolve source s).bind ?_
  rintro values _ ⟨rfl, hlength⟩
  obtain ⟨heq, hg⟩ := h values hlength
  exact .checked heq (.pure (carries_mark hg label))

/-- **The evaluation by index never fails, and does what the evaluation does,** over tables of
which the size is a word. -/
theorem mirrors_evaluate (hsize : size < 2 ^ 64) (c : Condition) :
    Mirrors size (Carries size) (evaluate source c) (BarTable.evaluate source c) := by
  induction c using Condition.induct with
  | comparison relation first second =>
    refine (mirrors_resolve source first).bind ?_
    rintro a _ ⟨rfl, ha⟩
    refine (mirrors_resolve source second).bind ?_
    rintro b _ ⟨rfl, hb⟩
    refine .checked (related_eq relation (hb.trans ha.symm)) (.pure (carries_mark ?_ _))
    exact (Signals.grown_related relation (grown_self ha) (grown_self hb)).length_left
  | all cs ih =>
    refine (mirrors_evaluateAll source ih).bind fun results signals hresults => ?_
    obtain ⟨rfl, hlength⟩ := columns_eq hresults
    refine mirrors_get.bind ?_
    rintro t _ ⟨rfl, rfl⟩
    exact .checked_last (all_eq hlength) ⟨rfl, length_all hlength⟩
  | any cs ih =>
    refine (mirrors_evaluateAll source ih).bind fun results signals hresults => ?_
    obtain ⟨rfl, hlength⟩ := columns_eq hresults
    refine mirrors_get.bind ?_
    rintro t _ ⟨rfl, rfl⟩
    exact .checked_last (any_eq hlength) ⟨rfl, length_any hlength⟩
  | after base days ih =>
    refine ih.bind ?_
    rintro _ signals ⟨rfl, hlength⟩
    exact .checked_last (delayed_eq _ signals)
      ⟨rfl, ((Signals.causal_delayed _).length_eq signals).trans hlength⟩
  | changeOver s percent days =>
    exact mirrors_marked source (fun values hvalues => ⟨changed_eq percent _ values,
      ((Signals.causal_changed percent _).length_eq values).trans hvalues⟩) s _
  | change s percent =>
    exact mirrors_marked source (fun values hvalues => ⟨changed_eq percent _ values,
      ((Signals.causal_changed percent _).length_eq values).trans hvalues⟩) s _
  | trend direction s days =>
    exact mirrors_marked source (fun values hvalues =>
      ⟨trending_eq direction _ (hvalues.symm ▸ hsize),
        ((Signals.causal_trending direction _).length_eq values).trans hvalues⟩) s _

end Mirrors

end Indexed

end TradeSignals
