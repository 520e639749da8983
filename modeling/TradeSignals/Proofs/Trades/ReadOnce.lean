import Mathlib.Data.List.Induction
import Mathlib.Data.List.Nodup
import TradeSignals.Proofs.Trades.Reached

/-!
# Each series is read once

A table keeps every series that was read for it, so the source is asked for a series the first
time only. Which series it is asked for, and in which order, is known before any number is: the
conditions name their series in the order in which they read them
(`TradeSignals.Condition.series`), and of these series the source is asked for those that the table
does not keep and that were not met before (`TradeSignals.Series.firstMet`). Nothing else is asked
for, and what is asked for is what the table keeps from then on
(`TradeSignals.BarTable.readings_eq`).

To say what a source is asked for, it is made to record it (`TradeSignals.SeriesSource.recording`).
A computation that meets some series is then compared with itself over the source that does not
record (`TradeSignals.BarTable.Meets`). This relation goes through `pure` and `bind`, and the series
that are met are put together on the way.
-/

namespace TradeSignals

/-! ### Series that are met for the first time -/

namespace Series

/-- **The series that are met for the first time:** of all that are met, in order, those whose text
is not a known one and is not that of a series before it. -/
def firstMet (known : List String) (met : List Series) : List Series :=
  (met.zipIdx.filter fun p =>
    decide (p.1.text ∉ known ∧ p.1.text ∉ (met.take p.2).map text)).map (·.1)

variable {known : List String} {met : List Series}

/-- One more series is met for the first time, or it was known or met before. -/
theorem firstMet_concat (known : List String) (met : List Series) (s : Series) :
    firstMet known (met ++ [s]) =
      firstMet known met ++ if s.text ∉ known ∧ s.text ∉ met.map text then [s] else [] := by
  have hbefore : met.zipIdx.filter (fun p =>
      decide (p.1.text ∉ known ∧ p.1.text ∉ ((met ++ [s]).take p.2).map text)) =
      met.zipIdx.filter fun p =>
        decide (p.1.text ∉ known ∧ p.1.text ∉ (met.take p.2).map text) := by
    refine List.filter_congr fun p hp => ?_
    have hp : p.2 ≤ met.length := by
      have := List.snd_lt_of_mem_zipIdx hp
      omega
    rw [List.take_append_of_le_length hp]
  rw [firstMet, List.zipIdx_append, List.filter_append, List.map_append, hbefore, firstMet,
    List.zipIdx_singleton, Nat.zero_add, List.filter_singleton, List.take_left' rfl]
  by_cases h : s.text ∉ known ∧ s.text ∉ met.map text
  · rw [decide_eq_true h, if_pos h]
    rfl
  · rw [decide_eq_false h, if_neg h]
    rfl

/-- What was known or is met for the first time is what was known or is met. -/
theorem mem_known_firstMet {key : String} :
    key ∈ known ++ (firstMet known met).map text ↔ key ∈ known ∨ key ∈ met.map text := by
  induction met using List.reverseRecOn with
  | nil => simp [firstMet]
  | append_singleton met s ih =>
    rw [List.mem_append] at ih ⊢
    rw [firstMet_concat, List.map_append, List.mem_append, ← or_assoc, ih, List.map_append,
      List.mem_append, ← or_assoc, List.map_singleton, List.mem_singleton]
    split
    · rw [List.map_singleton, List.mem_singleton]
    · next h =>
      -- The text of the series is there already.
      rw [List.map_nil, or_iff_left List.not_mem_nil]
      refine (or_iff_left_of_imp ?_).symm
      rintro rfl
      by_contra hnot
      exact h (not_or.1 hnot)

/-- **Series are met part by part:** what the first part met is known in the second. -/
theorem firstMet_append (known : List String) (met more : List Series) :
    firstMet known (met ++ more) =
      firstMet known met ++ firstMet (known ++ (firstMet known met).map text) more := by
  induction more using List.reverseRecOn with
  | nil => simp [firstMet]
  | append_singleton more s ih =>
    have hnew : (s.text ∉ known ∧ s.text ∉ (met ++ more).map text) ↔
        s.text ∉ known ++ (firstMet known met).map text ∧ s.text ∉ more.map text := by
      rw [mem_known_firstMet, List.map_append, List.mem_append, not_or, not_or, and_assoc]
    rw [← List.append_assoc, firstMet_concat, ih, firstMet_concat, List.append_assoc]
    simp only [hnew]

/-- What is met for the first time is met. -/
theorem mem_of_mem_firstMet {s : Series} (h : s ∈ firstMet known met) : s ∈ met := by
  obtain ⟨p, hp, rfl⟩ := List.mem_map.1 h
  exact List.fst_mem_of_mem_zipIdx (List.mem_of_mem_filter hp)

/-- **No series is met for the first time twice,** and none that is known. -/
theorem nodup_firstMet (known : List String) (met : List Series) :
    ((firstMet known met).map text).Nodup ∧ ∀ s ∈ firstMet known met, s.text ∉ known := by
  induction met using List.reverseRecOn with
  | nil => simp [firstMet]
  | append_singleton met s ih =>
    rw [firstMet_concat]
    split
    · next h =>
      rw [List.map_append, List.map_singleton, List.nodup_append_comm, List.singleton_append,
        List.nodup_cons]
      refine ⟨⟨fun hmem => ?_, ih.1⟩,
        List.forall_mem_append.2 ⟨ih.2, List.forall_mem_singleton.2 h.1⟩⟩
      rcases mem_known_firstMet.1 (List.mem_append_right known hmem) with hknown | hmet
      · exact h.1 hknown
      · exact h.2 hmet
    · rwa [List.append_nil]

end Series

/-! ### Sources that record -/

/-- A source that also keeps which series it was asked for, in order. -/
def SeriesSource.recording {σ : Type} (source : SeriesSource (StateM σ)) :
    SeriesSource (StateM (σ × List Series)) :=
  fun s t (k, asked) =>
    let (values, k) := source s t k
    (values, k, asked ++ [s])

namespace BarTable

section Meets

variable {σ β γ : Type} {source : SeriesSource (StateM σ)} {met more : List Series}

/-- **A computation that meets series:** the source is asked for those that are met for the first
time, these are kept, and otherwise it does not matter that the source records. -/
def Meets (met : List Series) (plain : StateT BarTable (StateM σ) β)
    (recorded : StateT BarTable (StateM (σ × List Series)) β) : Prop :=
  ∀ t k asked,
    recorded t (k, asked) =
      ((plain t k).1, (plain t k).2, asked ++ Series.firstMet t.cache.keys met) ∧
    (plain t k).1.2.cache.keys =
      t.cache.keys ++ (Series.firstMet t.cache.keys met).map Series.text

theorem Meets.pure (a : β) :
    Meets [] (Pure.pure a : StateT BarTable (StateM σ) β) (Pure.pure a) := by
  intro t k asked
  rw [show Series.firstMet t.cache.keys [] = [] from rfl, List.append_nil, List.map_nil,
    List.append_nil]
  exact ⟨rfl, rfl⟩

/-- One computation after another meets the series of both. -/
theorem Meets.bind {x : StateT BarTable (StateM σ) β}
    {y : StateT BarTable (StateM (σ × List Series)) β} {f : β → StateT BarTable (StateM σ) γ}
    {g : β → StateT BarTable (StateM (σ × List Series)) γ} (hx : Meets met x y)
    (hf : ∀ a, Meets more (f a) (g a)) : Meets (met ++ more) (x >>= f) (y >>= g) := by
  intro t k asked
  obtain ⟨hrecorded, hkeys⟩ := hx t k asked
  obtain ⟨hrecorded', hkeys'⟩ :=
    hf (x t k).1.1 (x t k).1.2 (x t k).2 (asked ++ Series.firstMet t.cache.keys met)
  rw [hkeys] at hrecorded' hkeys'
  refine ⟨?_, ?_⟩
  · show g (y t (k, asked)).1.1 (y t (k, asked)).1.2 (y t (k, asked)).2 = _
    rw [hrecorded]
    refine hrecorded'.trans ?_
    rw [Series.firstMet_append, List.append_assoc]
    rfl
  · refine hkeys'.trans ?_
    rw [Series.firstMet_append, List.map_append, List.append_assoc]

theorem meets_get : Meets [] (get : StateT BarTable (StateM σ) BarTable) get := by
  intro t k asked
  rw [show Series.firstMet t.cache.keys [] = [] from rfl, List.append_nil, List.map_nil,
    List.append_nil]
  exact ⟨rfl, rfl⟩

/-- **A series is met** where it is resolved. -/
theorem meets_resolve (source : SeriesSource (StateM σ)) (s : Series) :
    Meets [s] (resolve source s) (resolve source.recording s) := by
  intro t k asked
  have hfirst : Series.firstMet t.cache.keys [s] =
      if s.text ∉ t.cache.keys then [s] else [] := by
    have h := Series.firstMet_concat t.cache.keys [] s
    simpa [Series.firstMet] using h
  rw [run_resolve, run_resolve, hfirst]
  rcases hcache : t.cache.get? s.text with _ | values
  · have hnew : s.text ∉ t.cache.keys := Dictionary.get?_eq_none_iff.1 hcache
    rw [if_pos hnew]
    refine ⟨rfl, ?_⟩
    exact (Dictionary.keys_put _ _ _).trans (if_neg hnew)
  · have hold : ¬s.text ∉ t.cache.keys := by
      rw [← Dictionary.get?_eq_none_iff, hcache]
      exact Option.some_ne_none values
    rw [if_neg hold]
    simp

theorem meets_evaluateAll {cs : List Condition}
    (h : ∀ c ∈ cs, Meets c.series (evaluate source c) (evaluate source.recording c)) :
    Meets (cs.flatMap Condition.series) (evaluateAll source cs)
      (evaluateAll source.recording cs) := by
  induction cs with
  | nil => exact .pure []
  | cons c cs ih =>
    rw [List.flatMap_cons, ← List.append_nil (cs.flatMap Condition.series)]
    refine (h c List.mem_cons_self).bind fun signals => ?_
    exact (ih fun d hd => h d (List.mem_cons_of_mem c hd)).bind fun rest => .pure _

/-- **A condition meets its series,** in the order in which it names them. -/
theorem meets_evaluate (source : SeriesSource (StateM σ)) (c : Condition) :
    Meets c.series (evaluate source c) (evaluate source.recording c) := by
  -- After the series of a condition have been met, only its signals are put together.
  rw [← List.append_nil c.series]
  induction c using Condition.induct with
  | comparison relation first second =>
    exact (meets_resolve source first).bind fun a =>
      (meets_resolve source second).bind fun b => .pure _
  | all cs ih | any cs ih =>
    rw [Condition.series, Condition.seriesOfAll_eq]
    simp only [List.append_nil] at ih
    exact (meets_evaluateAll ih).bind fun results => meets_get.bind fun t => .pure _
  | after base days ih =>
    simp only [List.append_nil] at ih
    exact ih.bind fun signals => .pure _
  | changeOver s percent days | change s percent | trend direction s days =>
    exact (meets_resolve source s).bind fun values => .pure _

end Meets

end BarTable

open BarTable in
/-- **Running a strategy meets** the series of its first condition and then those of its second
one. -/
theorem Strategy.meets_run {σ : Type} (source : SeriesSource (StateM σ)) (s : Strategy) :
    Meets (s.buyCondition.series ++ s.sellCondition.series) (s.run source)
      (s.run source.recording) := by
  intro t k asked
  obtain ⟨hbuy, hbuyKeys⟩ := meets_evaluate source s.buyCondition t k asked
  obtain ⟨hsell, hsellKeys⟩ := meets_evaluate source s.sellCondition
    (evaluate source s.buyCondition t k).1.2 (evaluate source s.buyCondition t k).2
    (asked ++ Series.firstMet t.cache.keys s.buyCondition.series)
  rw [hbuyKeys] at hsell hsellKeys
  rw [run_state, run_state]
  dsimp only
  rw [hbuy]
  dsimp only
  rw [hsell, Series.firstMet_append, List.map_append, ← List.append_assoc, ← List.append_assoc]
  -- The columns that the run writes have nothing to do with what is kept.
  exact ⟨rfl, hsellKeys⟩

/-- **Each series is read at most once for a table.** Whatever the source and the table are,
conditions that are evaluated one after the other over the table ask the source for the series that
they name, in their order, and of these for those whose text the table did not keep at the start
and that were not named before; that many more series are kept afterwards. The same is true of the
two conditions of a strategy that is run. So no series is asked for twice, and none that was kept.
That the source records what it is asked for makes no other difference. -/
theorem BarTable.readings_eq {σ : Type} (source : SeriesSource (StateM σ)) (t : BarTable) (k : σ) :
    (∀ cs : List Condition,
      let read := Series.firstMet t.cache.keys (cs.flatMap Condition.series)
      let done := evaluateAll source cs t k
      evaluateAll source.recording cs t (k, []) = (done.1, done.2, read) ∧
        done.1.2.cache.size = t.cache.size + read.length) ∧
    (∀ s : Strategy,
      let read := Series.firstMet t.cache.keys (s.buyCondition.series ++ s.sellCondition.series)
      let done := s.run source t k
      s.run source.recording t (k, []) = (done.1, done.2, read) ∧
        done.1.2.cache.size = t.cache.size + read.length) ∧
    ∀ met, ((Series.firstMet t.cache.keys met).map Series.text).Nodup ∧
      ∀ s ∈ Series.firstMet t.cache.keys met, s.text ∉ t.cache.keys := by
  have hmeets : ∀ {β : Type} {met : List Series} {plain : StateT BarTable (StateM σ) β}
      {recorded : StateT BarTable (StateM (σ × List Series)) β}, Meets met plain recorded →
      recorded t (k, []) =
          ((plain t k).1, (plain t k).2, Series.firstMet t.cache.keys met) ∧
        (plain t k).1.2.cache.size =
          t.cache.size + (Series.firstMet t.cache.keys met).length := by
    intro β met plain recorded h
    obtain ⟨hrecorded, hkeys⟩ := h t k []
    refine ⟨hrecorded, ?_⟩
    rw [Dictionary.size_eq, hkeys, List.length_append, List.length_map, Dictionary.size_eq]
  refine ⟨fun cs => ?_, fun s => ?_, Series.nodup_firstMet t.cache.keys⟩
  · exact hmeets (meets_evaluateAll fun c _ => meets_evaluate source c)
  · exact hmeets (s.meets_run source)

end TradeSignals
