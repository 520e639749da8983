import TradeSignals.Proofs.Trades.Transitions

/-!
# What the exit rule is asked

A reader of the rows knows on which bars the exit rule was asked, what it was asked there and what
it answered (`TradeSignals.Reconciliation.exchange?`). A rule that writes all this down while the
reconciliation goes on writes down the same, bar by bar
(`TradeSignals.Reconciliation.log_walk`), and makes no other difference
(`TradeSignals.Reconciliation.walk_recording`).

So what is to be proved of the questions can be proved of one bar at a time, from where the walk
stands when it comes to the bar (`TradeSignals.Reconciliation.exists_standing`).
-/

namespace TradeSignals

namespace Reconciliation

variable {σ : Type} {sides : PositionType} {bars : List (Bool × Bool)} {i : ℕ} {buy sell : Bool}

/-! ### One bar -/

/-- A step asks about its own bar. -/
theorem bar_of_asked? {bar : ℕ} {p : Position} {held : HeldBar}
    (h : asked? sides bar p buy sell = some held) : held.bar = bar := by
  unfold asked? at h
  split at h
  · cases h
  · split at h
    · cases h
    · cases h
      rfl

/-- Where the table lists a transition, nothing is asked. -/
theorem asked?_eq_none {bar : ℕ} {p : Position} {row : TradeRow}
    (h : Listed sides p.side? buy sell row) : asked? sides bar p buy sell = none := by
  obtain ⟨next, hnext⟩ := transition?_eq_some_iff.2 h
  cases p with
  | flat => rfl
  | held side since =>
    rw [asked?, show transition? sides (some side) buy sell = some (row, next) from hnext]
    rfl

/-- Where a position is held and the table lists no transition, the rule is asked. -/
theorem asked?_held {bar since : ℕ} {side : Side}
    (h : ∀ row, ¬Listed sides (some side) buy sell row) :
    asked? sides bar (.held side since) buy sell =
      some ⟨bar, side, since, opens side buy sell⟩ := by
  rw [asked?, transition?_eq_none_iff.2 h]
  rfl

/-- **Where the walk stands when it comes to a bar,** and what it does there. The rule does not
fire where a signal changes the position. -/
theorem exists_standing (rule : ExitRule σ) (s : σ) (hbar : bars[i]? = some (buy, sell)) :
    let rows := (walk sides rule 0 .flat s bars).1
    let fires := fires sides rule s bars rows i
    ∃ p row, Position.flat.replay? (events (rows.take i)) = some p ∧ p.Standing sides i ∧
      Scheduled sides buy sell fires p.side? row ∧
      (∀ other, Listed sides p.side? buy sell other → fires = false) ∧
      rows[i]? = some (if i + 1 < bars.length then row else closing p) := by
  intro rows fires
  obtain ⟨hi, -⟩ := List.getElem?_eq_some_iff.1 hbar
  have hreplay := replay?_advance sides rule s (bars.take i)
  have hstanding := (moves_advance (p := .flat) sides 0 rule (bars.take i) s trivial).2
  have hfires : fires = _ := fires_walk sides rule s hbar
  have hrow := getElem?_walk sides rule hbar .flat s
  rw [List.length_take_of_le (Nat.le_of_lt hi), Nat.zero_add] at hstanding
  rw [← take_walk hi] at hreplay
  dsimp only at hrow
  generalize (advance sides rule 0 .flat s (bars.take i)).2 = before
    at hreplay hstanding hfires hrow
  obtain ⟨p, m⟩ := before
  rw [(move_step rule hstanding m buy sell).settle_eq hstanding] at hrow
  rw [hfires]
  refine ⟨p, _, hreplay, hstanding, scheduled_step, fun other hlisted => ?_, hrow⟩
  rw [asked?_eq_none hlisted]
  rfl

/-! ### Rules that write down their questions -/

variable (sides) (rule : ExitRule σ)

theorem step_recording (bar : ℕ) (p : Position) (s : σ) (log : List (HeldBar × Bool))
    (buy sell : Bool) :
    ∃ more, step sides rule.recording bar p (s, log) buy sell =
      let after := step sides rule bar p s buy sell
      (after.1, after.2.1, after.2.2, log ++ more) := by
  rcases htable : transition? sides p.side? buy sell with _ | ⟨row, next⟩
  · cases p with
    | flat =>
      rw [step_flat htable, step_flat htable]
      exact ⟨[], by rw [List.append_nil]⟩
    | held side since =>
      rw [step_held htable, step_held htable]
      refine ⟨[(⟨bar, side, since, opens side buy sell⟩,
        (rule s ⟨bar, side, since, opens side buy sell⟩).1)], ?_⟩
      by_cases hleaves : (rule s ⟨bar, side, since, opens side buy sell⟩).1 = true
      · rw [if_pos hleaves]
        exact if_pos hleaves
      · rw [if_neg hleaves]
        exact if_neg hleaves
  · rw [step_of_some htable, step_of_some htable]
    exact ⟨[], by rw [List.append_nil]⟩

/-- **Writing down the questions changes nothing else.** -/
theorem walk_recording (bars : List (Bool × Bool)) (bar : ℕ) (p : Position) (s : σ)
    (log : List (HeldBar × Bool)) :
    let done := walk sides rule bar p s bars
    let recorded := walk sides rule.recording bar p (s, log) bars
    recorded.1 = done.1 ∧ recorded.2.1 = done.2 := by
  induction bars generalizing bar p s log with
  | nil => exact ⟨rfl, rfl⟩
  | cons first rest ih =>
    obtain ⟨buy, sell⟩ := first
    obtain ⟨more, hstep⟩ := step_recording sides rule bar p s log buy sell
    rcases rest with _ | ⟨second, rest⟩
    · rw [walk_singleton, walk_singleton, hstep]
      exact ⟨rfl, rfl⟩
    · rw [walk_cons (List.cons_ne_nil _ _), walk_cons (List.cons_ne_nil _ _), hstep]
      obtain ⟨hrows, hmemory⟩ := ih (bar + 1) (step sides rule bar p s buy sell).2.1
        (step sides rule bar p s buy sell).2.2 (log ++ more)
      exact ⟨congrArg (_ :: ·) hrows, hmemory⟩

/-! ### What is written down -/

/-- **What the rule is asked about a bar and what it answers,** if it is asked. -/
def exchange? (s : σ) (bars : List (Bool × Bool)) (rows : List TradeRow) (bar : ℕ) :
    Option (HeldBar × Bool) :=
  (question? sides bars rows bar).map fun held => (held, fires sides rule s bars rows bar)

/-- What a rule that writes down its questions remembers when a bar begins. -/
theorem memoryAt_recording (s : σ) (bars : List (Bool × Bool)) (rows : List TradeRow) (bar : ℕ) :
    memoryAt sides rule.recording (s, []) bars rows bar =
      (memoryAt sides rule s bars rows bar,
        (List.range bar).filterMap (exchange? sides rule s bars rows)) := by
  induction bar with
  | zero => rfl
  | succ bar ih =>
    rw [memoryAt, memoryAt, ih, List.range_succ, List.filterMap_append, List.filterMap_cons,
      List.filterMap_nil, exchange?, fires]
    rcases question? sides bars rows bar with _ | held
    · exact congrArg _ (List.append_nil _).symm
    · rfl

/-- **What the rule remembers in the end** is what a reader of the rows says that it does. -/
theorem memory_walk (s : σ) (bars : List (Bool × Bool)) :
    (walk sides rule 0 .flat s bars).2 =
      memoryAt sides rule s bars (walk sides rule 0 .flat s bars).1 bars.length := by
  rcases List.eq_nil_or_concat bars with rfl | ⟨first, ⟨buy, sell⟩, rfl⟩
  · rfl
  · rw [List.concat_eq_append]
    have hlast : first.length < (first ++ [(buy, sell)]).length := by
      rw [List.length_append]
      exact Nat.lt_succ_self _
    -- The reader adds the question that the step on the last bar asks, if any.
    rw [List.length_append, List.length_singleton, memoryAt, memoryAt_walk hlast,
      question?_walk List.getElem?_concat_length, List.take_left' rfl, ← memory_step,
      walk_append first (List.cons_ne_nil _ _), walk_singleton, Nat.zero_add]

/-- **What is written down** is what the rule is asked and answers, bar by bar. -/
theorem log_walk (s : σ) (bars : List (Bool × Bool)) :
    (walk sides rule.recording 0 .flat (s, []) bars).2.2 =
      (List.range bars.length).filterMap
        (exchange? sides rule s bars (walk sides rule 0 .flat s bars).1) := by
  rw [memory_walk, memoryAt_recording, (walk_recording sides rule bars 0 .flat s []).1]

/-- **The questions are those that a reader of the rows finds.** -/
theorem questions_walk (s : σ) (bars : List (Bool × Bool)) :
    let done := walk sides rule.recording 0 .flat (s, []) bars
    done.2.2.map (·.1) = (List.range bars.length).filterMap (question? sides bars done.1) := by
  intro done
  have hrows : done.1 = _ := (walk_recording sides rule bars 0 .flat s []).1
  rw [hrows, show done.2.2 = _ from log_walk sides rule s bars, List.map_filterMap]
  refine congrArg (List.filterMap · _) (funext fun bar => ?_)
  rw [exchange?, Option.map_map]
  exact Option.map_id'

end Reconciliation

end TradeSignals
