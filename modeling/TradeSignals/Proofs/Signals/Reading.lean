import Mathlib.Data.Nat.Notation
import TradeSignals.Signals.Evaluation

/-!
# What an evaluation reads

Evaluating a condition reads series and does nothing else to the table: one after the other,
series that are not kept yet are read and kept (`TradeSignals.BarTable.Reads`). What comes out
are the signals of the condition for the numbers that are then kept
(`TradeSignals.BarTable.evaluate_spec`). This holds for any source, also for one that has a
state of its own and answers differently each time it is asked, since what has been read once is
not read again.

The signals themselves are a function of the numbers of each series
(`TradeSignals.Condition.signals`), which knows nothing of tables. All that is to be known about
a table is which numbers it keeps, and all that is to be proved of an evaluation follows from
what holds of each reading.
-/

namespace TradeSignals

/-! ### Signals as a function of numbers -/

namespace Condition

mutual

/-- **The signals of a condition** on so many bars, for given numbers of each series. -/
def signals (size : ℕ) (numbers : Series → List Float) : Condition → Signals
  | .comparison relation first second =>
    .mark (signalLabel relation.signalName [first.text, second.text])
      (Signals.related relation (numbers first) (numbers second))
  | .all conditions => .all size (signalsOfAll size numbers conditions)
  | .any conditions => .any size (signalsOfAll size numbers conditions)
  | .after base days => .delayed days.toNat (signals size numbers base)
  | .changeOver s percent days =>
    .mark
      (signalLabel "ChangeOfXPercentPerYDaysSignal"
        [s.text, NumberLayout.canonical.text percent, toString days])
      (Signals.changed percent days.toNat (numbers s))
  | .change s percent =>
    .mark
      (signalLabel "IntraIntervalChangeOfXPercentSignal"
        [s.text, NumberLayout.canonical.text percent])
      (Signals.changed percent 1 (numbers s))
  | .trend direction s days =>
    .mark (signalLabel direction.signalName [s.text, toString days])
      (Signals.trending direction days.toNat (numbers s))

/-- The signals of several conditions. -/
def signalsOfAll (size : ℕ) (numbers : Series → List Float) : List Condition → List Signals
  | [] => []
  | c :: rest => signals size numbers c :: signalsOfAll size numbers rest

end

end Condition

namespace BarTable

/-! ### Reading series -/

/-- What a table keeps are the given numbers, for every series that it keeps. -/
def KeepsOnly (numbers : Series → List Float) (t : BarTable) : Prop :=
  ∀ s values, t.cache.get? s.text = some values → values = numbers s

section Reading

variable {σ : Type} (source : SeriesSource (StateM σ))

/-- **From one table to another by reading series** that are not kept yet, in whatever state
the source is. -/
inductive Reads : BarTable → BarTable → Prop where
  /-- Nothing is read. -/
  | none (t : BarTable) : Reads t t
  /-- One more series is read. -/
  | more {t u : BarTable} (h : Reads t u) (s : Series) (k : σ)
      (hnew : u.cache.get? s.text = none) :
      Reads t (u.keep s.text (Column.fit u.size Quantity.missing (source s u k).1))

variable {source} {t u v : BarTable}

theorem Reads.trans (h : Reads source t u) (h' : Reads source u v) : Reads source t v := by
  induction h' with
  | none => exact h
  | more _ s k hnew ih => exact ih.more s k hnew

/-- **Only what is kept changes** by reading. -/
theorem Reads.frame (h : Reads source t u) : ∃ cache, u = { t with cache := cache } := by
  induction h with
  | none => exact ⟨t.cache, rfl⟩
  | more _ s k _ ih =>
    obtain ⟨cache, rfl⟩ := ih
    exact ⟨_, rfl⟩

theorem Reads.bars_eq (h : Reads source t u) : u.bars = t.bars := by
  obtain ⟨cache, rfl⟩ := h.frame
  rfl

theorem Reads.size_eq (h : Reads source t u) : u.size = t.size :=
  congrArg List.length h.bars_eq

/-- What is kept stays as it is. -/
theorem Reads.get?_eq (h : Reads source t u) {key : String} {values : List Float}
    (hkey : t.cache.get? key = some values) : u.cache.get? key = some values := by
  induction h with
  | none => exact hkey
  | more _ s k hnew ih =>
    rw [keep, Dictionary.get?_put, if_neg, ih]
    rintro rfl
    rw [ih] at hnew
    cases hnew

theorem Reads.keepsOnly {numbers : Series → List Float} (h : Reads source t u)
    (hu : u.KeepsOnly numbers) : t.KeepsOnly numbers :=
  fun s values hs => hu s values (h.get?_eq hs)

/-! ### Computations that read -/

/-- **A computation that only reads**, and gives a result that is in a relation to the numbers
that are kept after it. -/
def Sees {β : Type} (source : SeriesSource (StateM σ)) (size : ℕ)
    (R : (Series → List Float) → β → Prop) (x : StateT BarTable (StateM σ) β) : Prop :=
  ∀ t k, t.size = size → Reads source t (x t k).1.2 ∧
    ∀ numbers, (x t k).1.2.KeepsOnly numbers → R numbers (x t k).1.1

variable {β γ : Type} {size : ℕ}

theorem Sees.pure {R : (Series → List Float) → β → Prop} {a : β} (h : ∀ numbers, R numbers a) :
    Sees source size R (Pure.pure a) :=
  fun t _ _ => ⟨.none t, fun numbers _ => h numbers⟩

/-- One computation after another: what the first has read is still kept after the second. -/
theorem Sees.bind {R : (Series → List Float) → β → Prop} {S : (Series → List Float) → γ → Prop}
    {x : StateT BarTable (StateM σ) β} {f : β → StateT BarTable (StateM σ) γ}
    (hx : Sees source size R x)
    (hf : ∀ a, Sees source size (fun numbers b => R numbers a → S numbers b) (f a)) :
    Sees source size S (x >>= f) := by
  intro t k ht
  obtain ⟨hreads, hR⟩ := hx t k ht
  obtain ⟨hmore, hS⟩ := hf (x t k).1.1 (x t k).1.2 (x t k).2 (hreads.size_eq.trans ht)
  exact ⟨hreads.trans hmore, fun numbers h => hS numbers h (hR numbers (hmore.keepsOnly h))⟩

/-- The size of the table is known. -/
theorem sees_get : Sees source size (fun _ t => t.size = size) get :=
  fun t _ ht => ⟨.none t, fun _ _ => ht⟩

/-- A series is found, or it is read and kept. -/
theorem run_resolve (source : SeriesSource (StateM σ)) (s : Series) (t : BarTable) (k : σ) :
    resolve source s t k =
      match t.cache.get? s.text with
      | some values => ((values, t), k)
      | none =>
        let values := Column.fit t.size Quantity.missing (source s t k).1
        ((values, t.keep s.text values), (source s t k).2) := by
  show (match t.cache.get? s.text with
    | some values => pure values
    | none => do
      let values := Column.fit t.size Quantity.missing (← source s t)
      modify (·.keep s.text values)
      return values : StateT BarTable (StateM σ) (List Float)) t k = _
  rcases t.cache.get? s.text with _ | values
  · rfl
  · rfl

/-- **The numbers of a series** are those that are kept for it from then on. -/
theorem sees_resolve (s : Series) :
    Sees source size (fun numbers values => values = numbers s) (resolve source s) := by
  intro t k _
  rw [run_resolve]
  rcases hcache : t.cache.get? s.text with _ | values
  · refine ⟨(Reads.none t).more s k hcache, fun numbers h => h s _ ?_⟩
    show (t.cache.put s.text _).get? s.text = _
    rw [Dictionary.get?_put, if_pos rfl]
  · exact ⟨.none t, fun numbers h => h s values hcache⟩

theorem sees_evaluateAll {cs : List Condition} (h : ∀ c ∈ cs, Sees source size
    (fun numbers signals => signals = c.signals size numbers) (evaluate source c)) :
    Sees source size (fun numbers results => results = Condition.signalsOfAll size numbers cs)
      (evaluateAll source cs) := by
  induction cs with
  | nil => exact .pure fun _ => rfl
  | cons c cs ih =>
    refine (h c List.mem_cons_self).bind fun signals => ?_
    refine (ih fun d hd => h d (List.mem_cons_of_mem c hd)).bind fun rest => .pure ?_
    rintro numbers rfl rfl
    rfl

/-- **The signals of a condition** are those for the numbers that are kept after it. -/
theorem sees_evaluate (c : Condition) :
    Sees source size (fun numbers signals => signals = c.signals size numbers)
      (evaluate source c) := by
  induction c using Condition.induct with
  | comparison relation first second =>
    refine (sees_resolve first).bind fun a => (sees_resolve second).bind fun b => .pure ?_
    rintro numbers rfl rfl
    rfl
  | all cs ih | any cs ih =>
    refine (sees_evaluateAll ih).bind fun results => sees_get.bind fun t => .pure ?_
    rintro numbers rfl rfl
    rfl
  | after base days ih =>
    refine ih.bind fun signals => .pure ?_
    rintro numbers rfl
    rfl
  | changeOver s percent days | change s percent | trend direction s days =>
    refine (sees_resolve s).bind fun values => .pure ?_
    rintro numbers rfl
    rfl

/-- **What an evaluation does:** it reads series, and gives the signals for all numbers that
agree with those that are kept then. -/
theorem evaluate_spec (source : SeriesSource (StateM σ)) (c : Condition) (t : BarTable) (k : σ) :
    Reads source t (evaluate source c t k).1.2 ∧
      ∀ numbers, (evaluate source c t k).1.2.KeepsOnly numbers →
        (evaluate source c t k).1.1 = c.signals t.size numbers :=
  sees_evaluate c t k rfl

end Reading

end BarTable

end TradeSignals
