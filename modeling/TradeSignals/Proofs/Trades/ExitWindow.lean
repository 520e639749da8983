import TradeSignals.Proofs.Trades.Reasons

/-!
# The exit rule without its memory

The exit rule remembers the position that it watches: where it counts as entered, and the best
close from there on. It starts to remember when it is first asked about a position, begins anew
when the signal that opened the position comes again, and keeps what it knows of a position that
was closed by a signal until another one takes its place. What it answers can be said without
all this. A position counts as entered on the last bar since it was opened on which the rule was
asked while the signal was there again, or else on the bar on which it was opened
(`TradeSignals.ExitOverlay.enteredAt`). The rule leaves on a later bar whose close is beyond a
threshold (`TradeSignals.ExitOverlay.Due`), where the thresholds are prices above or below the
close of that bar, or the best of the closes from that bar to this one.

To speak of what the rule was asked, the reconciliation is run with a rule that also writes down
all questions and answers; this changes nothing else
(`TradeSignals.Reconciliation.walk_recording`). What is carried from bar to bar is that the rule
knows of the position what the questions so far say of it
(`TradeSignals.Reconciliation.Watched`). No bar is missed on the way, since the rule is asked
about every bar on which a position is held and goes on to be.
-/

namespace TradeSignals

namespace ExitOverlay

open Quantity

/-! ### The rule, without memory -/

/-- What a rule was asked, and what it answered. -/
abbrev Log := List (HeldBar × Bool)

/-- **The bar on which a position counts as entered,** seen from a later bar: the last one up to
there on which the signal that opened it was there again, or else the one on which it was
opened. -/
def enteredAt (log : Log) (since bar : ℕ) : ℕ :=
  ((log.filter fun entry => entry.1.freshEntry && since < entry.1.bar && entry.1.bar ≤ bar).map
    (·.1.bar)).getLast?.getD since

section Due

variable (x : ExitOverlay Float)

/-- The best of the closes from one bar up to another one, which is left out. -/
def best (side : Side) (first bound : ℕ) : Float :=
  ((List.range' first (bound - first)).map x.close).foldl (better side) missing

/-- Has a position on a side that counts as entered on one bar lost too much on another one? -/
def StopHit (stop : StopLoss Float) (side : Side) (entered bar : ℕ) : Prop :=
  let reference := match stop.kind with
    | .normal => x.close entered
    | .trailing => x.best side entered (bar + 1)
  match side with
  | .long => x.close bar ≤ reference * (1 - stop.percent / 100)
  | .short => x.close bar ≥ reference * (1 + stop.percent / 100)

/-- Has a position on a side that counts as entered on one bar gained enough on another one? -/
def ProfitHit (profit : TakeProfit Float) (side : Side) (entered bar : ℕ) : Prop :=
  match side with
  | .long => x.close bar ≥ x.close entered * (1 + profit.percent / 100)
  | .short => x.close bar ≤ x.close entered * (1 - profit.percent / 100)

/-- **Why a position is to be left on a bar.** The stop loss comes first. -/
inductive Due (side : Side) (entered bar : ℕ) : ExitCause Float → Prop where
  /-- The loss is too great. -/
  | stop {stop : StopLoss Float} (hstop : x.stopLoss = some stop)
      (hhit : x.StopHit stop side entered bar) : Due side entered bar (.stop stop)
  /-- The profit is great enough, and the loss is not too great. -/
  | profit {profit : TakeProfit Float} (hprofit : x.takeProfit = some profit)
      (hstays : ∀ stop, x.stopLoss = some stop → ¬x.StopHit stop side entered bar)
      (hhit : x.ProfitHit profit side entered bar) : Due side entered bar (.profit profit)

end Due

/-- **What the rule does,** without its memory: what it answers, which rows come of it, and what
it has written down in the end. -/
structure Windowed (x : ExitOverlay Float) (log : Log) (rows : List TradeRow)
    (fired : List (ℕ × ExitCause Float)) : Prop where
  /-- It leaves on a bar after the one on which the position counts as entered, if there is a
  reason to. -/
  answers : ∀ held leaves, (held, leaves) ∈ log →
    let entered := enteredAt log held.since held.bar
    leaves = true ↔ entered < held.bar ∧ ∃ cause, x.Due held.side entered held.bar cause
  /-- Where it leaves, the position is closed. -/
  exits : ∀ held, (held, true) ∈ log → rows[held.bar]? = some (.exit held.side)
  /-- What is written down is in order of the bars, each of them once. -/
  increasing : fired.Pairwise (·.1 < ·.1)
  /-- What is written down are the bars on which it leaves, and the reasons. -/
  mem_fired : ∀ bar cause, (bar, cause) ∈ fired ↔ ∃ held, (held, true) ∈ log ∧ held.bar = bar ∧
    x.Due held.side (enteredAt log held.since bar) bar cause

/-! ### Where a position counts as entered -/

section Entered

variable {log : Log} {since bar : ℕ}

theorem enteredAt_concat (log : Log) (entry : HeldBar × Bool) (since bar : ℕ) :
    enteredAt (log ++ [entry]) since bar =
      if entry.1.freshEntry ∧ since < entry.1.bar ∧ entry.1.bar ≤ bar then entry.1.bar
      else enteredAt log since bar := by
  rw [enteredAt, List.filter_append, List.map_append]
  by_cases h : entry.1.freshEntry ∧ since < entry.1.bar ∧ entry.1.bar ≤ bar
  · rw [if_pos h, List.filter_cons_of_pos (by simpa [and_assoc] using h), List.filter_nil,
      List.map_singleton, List.getLast?_concat, Option.getD_some]
  · rw [if_neg h, List.filter_cons_of_neg (by simpa [and_assoc] using h), List.filter_nil,
      List.map_nil, List.append_nil]
    rfl

/-- Where nothing was asked after a position was opened, it counts as entered there. -/
theorem enteredAt_of_le (h : ∀ entry ∈ log, entry.1.bar ≤ since) :
    enteredAt log since bar = since := by
  rw [enteredAt, List.filter_eq_nil_iff.2]
  · rfl
  · intro entry hentry hfresh
    have hlt : since < entry.1.bar := by simp at hfresh; exact hfresh.1.2
    exact absurd (h entry hentry) (Nat.not_le.2 hlt)

/-- Seen from any bar that comes later than the log, a position counts as entered on the same
bar. -/
theorem enteredAt_congr {bar' : ℕ} (h : ∀ entry ∈ log, entry.1.bar ≤ bar ∧ entry.1.bar ≤ bar') :
    enteredAt log since bar = enteredAt log since bar' := by
  rw [enteredAt, enteredAt]
  congr 3
  refine List.filter_congr fun entry hentry => ?_
  rw [decide_eq_true (h entry hentry).1, decide_eq_true (h entry hentry).2]

/-- A position counts as entered before the next bar. -/
theorem enteredAt_lt {bound : ℕ} (hsince : since < bound)
    (h : ∀ entry ∈ log, entry.1.bar < bound) : enteredAt log since bar < bound := by
  rw [enteredAt]
  rcases hlast : List.getLast? _ with _ | last
  · exact hsince
  · obtain ⟨entry, hentry, rfl⟩ := List.mem_map.1 (List.mem_of_getLast? hlast)
    exact h entry (List.mem_of_mem_filter hentry)

end Entered

/-! ### Closes and thresholds -/

section Closes

variable (x : ExitOverlay Float) (side : Side)

/-- No close is the best of none, and the first one that comes takes its place. -/
theorem better_missing (a : Float) : better side missing a = a := by
  cases side <;> rfl

theorem best_self (bar : ℕ) : x.best side bar bar = missing := by
  rw [best, Nat.sub_self]
  rfl

/-- One more close. -/
theorem best_succ {first bound : ℕ} (h : first ≤ bound) :
    x.best side first (bound + 1) = better side (x.best side first bound) (x.close bound) := by
  rw [best, Nat.succ_sub h, List.range'_1_concat, List.map_append, List.foldl_append,
    Nat.add_sub_cancel' h]
  rfl

/-- What there is to be known of a position before a bar. -/
def knowledge (since entered bound : ℕ) : Tracked Float :=
  ⟨since, x.close entered, x.best side entered bound⟩

theorem stops_iff (stop : StopLoss Float) (since entered bar : ℕ) :
    stops stop side (x.knowledge side since entered (bar + 1)) (x.close bar) = true ↔
      x.StopHit stop side entered bar := by
  obtain ⟨kind, percent⟩ := stop
  cases kind <;> cases side <;> exact decide_eq_true_iff

theorem profits_iff (profit : TakeProfit Float) (since entered bar : ℕ) :
    profits profit side (x.knowledge side since entered (bar + 1)) (x.close bar) = true ↔
      x.ProfitHit profit side entered bar := by
  cases side <;> exact decide_eq_true_iff

/-- **The reason that the rule gives is the one that is due.** -/
theorem cause?_eq_some_iff (since entered bar : ℕ) (cause : ExitCause Float) :
    x.cause? side (x.knowledge side since entered (bar + 1)) (x.close bar) = some cause ↔
      x.Due side entered bar cause := by
  rw [cause?]
  split
  next stop hstop =>
    obtain ⟨hstop, hhit⟩ := Option.filter_eq_some_iff.1 hstop
    have hhit := (stops_iff x side stop since entered bar).1 hhit
    refine ⟨fun h => ?_, fun h => ?_⟩
    · cases h
      exact .stop hstop hhit
    · cases h with
      | stop hother => rw [Option.some.inj (hother.symm.trans hstop)]
      | profit _ hstays => exact absurd hhit (hstays stop hstop)
  next hnone =>
    have hstays : ∀ stop, x.stopLoss = some stop → ¬x.StopHit stop side entered bar := by
      intro stop hstop hhit
      have hstops := (stops_iff x side stop since entered bar).2 hhit
      exact Option.filter_eq_none_iff.1 hnone stop hstop hstops
    refine ⟨fun h => ?_, fun h => ?_⟩
    · obtain ⟨profit, hprofit, rfl⟩ := Option.map_eq_some_iff.1 h
      obtain ⟨hprofit, hhit⟩ := Option.filter_eq_some_iff.1 hprofit
      exact .profit hprofit hstays ((profits_iff x side profit since entered bar).1 hhit)
    · cases h with
      | stop hstop hhit => exact absurd hhit (hstays _ hstop)
      | @profit profit hprofit _ hhit =>
        refine Option.map_eq_some_iff.2 ⟨profit, Option.filter_eq_some_iff.2 ⟨hprofit, ?_⟩, rfl⟩
        exact (profits_iff x side profit since entered bar).2 hhit

end Closes

/-! ### One question -/

section Question

variable {x : ExitOverlay Float} {m : Memory Float} {log : Log} {held : HeldBar}

/-- There is something to watch for. -/
def Armed (x : ExitOverlay Float) : Prop := ¬(x.stopLoss.isNone ∧ x.takeProfit.isNone)

/-- Without a threshold there is no reason to leave. -/
theorem cause?_of_not_armed (h : ¬x.Armed) (side : Side) (t : Tracked Float) (close : Float) :
    x.cause? side t close = none := by
  obtain ⟨hstop, hprofit⟩ := not_not.1 h
  rw [cause?, Option.isNone_iff_eq_none.1 hstop, Option.isNone_iff_eq_none.1 hprofit]
  rfl

/-- What is watched is what is known, if it is the position in question. -/
theorem tracking_of_some {α : Type} [Quantity α] {x : ExitOverlay α} {m : Memory α} {t : Tracked α}
    (h : m.tracked = some t) : x.tracking m t.since = t := by
  rw [tracking, h, Option.filter_some, if_pos (beq_self_eq_true t.since)]

/-- What is known is about the position in question. -/
theorem since_tracking {α : Type} [Quantity α] (x : ExitOverlay α) (m : Memory α) (since : ℕ) :
    (x.tracking m since).since = since := by
  rw [tracking]
  split
  next t ht => exact eq_of_beq (Option.filter_eq_some_iff.1 ht).2
  next => rfl

/-- Of a position that is not watched yet it is known when it was opened. -/
theorem tracking_of_ne {since : ℕ} (h : ∀ t ∈ m.tracked, t.since ≠ since) :
    x.tracking m since = ⟨since, x.close since, x.close since⟩ := by
  rw [tracking, Option.filter_eq_none_iff.2 fun t ht => by simpa using h t ht]

/-- The rule that is not armed does nothing. -/
theorem rule_of_not_armed (h : ¬x.Armed) (m : Memory Float) (held : HeldBar) :
    x.rule m held = (false, m) := by
  rw [rule, if_pos (not_not.1 h)]

/-- The rule begins anew where the signal is there again. -/
theorem rule_of_fresh (harmed : x.Armed) (hfresh : held.freshEntry = true) (m : Memory Float) :
    x.rule m held =
      (false, { m with tracked := some ⟨held.since, x.close held.bar, x.close held.bar⟩ }) := by
  rw [rule, if_neg harmed]
  exact if_pos hfresh

/-- What is known of a position after one more close. -/
def followed (x : ExitOverlay Float) (m : Memory Float) (held : HeldBar) : Tracked Float :=
  let t := x.tracking m held.since
  { t with extreme := better held.side t.extreme (x.close held.bar) }

/-- Elsewhere it goes by what it knows and the close of the bar. -/
theorem rule_of_stale (harmed : x.Armed) (hfresh : held.freshEntry = false) (m : Memory Float) :
    x.rule m held = (x.cause? held.side (x.followed m held) (x.close held.bar)).elim
      (false, { m with tracked := some (x.followed m held) })
      fun cause => (true, ⟨none, m.fired ++ [(held.bar, cause)]⟩) := by
  rw [rule, if_neg harmed]
  dsimp only
  rw [if_neg (Bool.eq_false_iff.1 hfresh)]
  unfold followed
  cases x.cause? held.side _ (x.close held.bar) <;> rfl

theorem since_followed (m : Memory Float) (held : HeldBar) :
    (x.followed m held).since = held.since :=
  since_tracking x m held.since

/-- Whatever it is asked, what the rule watches afterwards is the position in question, or what
it was watching. -/
theorem tracked_rule (m : Memory Float) (held : HeldBar) :
    ∀ t ∈ (x.rule m held).2.tracked, t.since = held.since ∨ t ∈ m.tracked := by
  intro t ht
  by_cases harmed : x.Armed
  · by_cases hfresh : held.freshEntry = true
    · rw [rule_of_fresh harmed hfresh] at ht
      exact .inl (Option.some.inj ht ▸ rfl)
    · rw [rule_of_stale harmed (Bool.eq_false_iff.2 hfresh)] at ht
      generalize x.cause? held.side _ (x.close held.bar) = cause at ht
      cases cause with
      | none => exact .inl (Option.some.inj ht ▸ since_followed m held)
      | some cause => cases ht
  · rw [rule_of_not_armed harmed] at ht
    exact .inr ht

section Known

variable (held) {entered : ℕ} (hentered : entered ≤ held.bar)

include hentered

theorem followed_eq
    (hknown : x.tracking m held.since = x.knowledge held.side held.since entered held.bar) :
    x.followed m held = x.knowledge held.side held.since entered (held.bar + 1) := by
  rw [followed, hknown, knowledge, knowledge, best_succ x held.side hentered]

/-- Why the rule leaves, in terms of what there is to be known. -/
theorem leaving?_eq (hknown : x.Armed →
      x.tracking m held.since = x.knowledge held.side held.since entered held.bar) :
    x.leaving? m held = if held.freshEntry then none else
      x.cause? held.side (x.knowledge held.side held.since entered (held.bar + 1))
        (x.close held.bar) := by
  rw [leaving?]
  by_cases harmed : x.Armed
  · rw [if_neg harmed, ← followed_eq held hentered (hknown harmed)]
    rfl
  · rw [if_pos (not_not.1 harmed), cause?_of_not_armed harmed, ite_self]

/-- What the rule knows after it was asked and did not leave. -/
theorem tracking_rule (harmed : x.Armed)
    (hknown : x.tracking m held.since = x.knowledge held.side held.since entered held.bar)
    (hstays : (x.rule m held).1 = false) : x.tracking (x.rule m held).2 held.since =
      x.knowledge held.side held.since (if held.freshEntry then held.bar else entered)
        (held.bar + 1) := by
  by_cases hfresh : held.freshEntry = true
  · rw [if_pos hfresh, rule_of_fresh harmed hfresh, knowledge, best_succ x held.side le_rfl,
      best_self, better_missing]
    exact tracking_of_some (t := ⟨held.since, _, _⟩) rfl
  · rw [if_neg hfresh, ← followed_eq held hentered hknown]
    rw [rule_of_stale harmed (Bool.eq_false_iff.2 hfresh)] at hstays ⊢
    generalize x.cause? held.side _ (x.close held.bar) = cause at hstays ⊢
    cases cause with
    | none =>
      rw [← since_followed m held]
      exact tracking_of_some rfl
    | some cause => cases hstays

end Known

/-- Why a rule that has been asked this much is to leave, if it is. -/
def due? (x : ExitOverlay Float) (log : Log) (held : HeldBar) : Option (ExitCause Float) :=
  let entered := enteredAt log held.since held.bar
  if entered < held.bar then
    x.cause? held.side (x.knowledge held.side held.since entered (held.bar + 1)) (x.close held.bar)
  else none

theorem due?_eq_some_iff {cause : ExitCause Float} : x.due? log held = some cause ↔
    let entered := enteredAt log held.since held.bar
    entered < held.bar ∧ x.Due held.side entered held.bar cause := by
  rw [due?, Option.ite_none_right_eq_some, cause?_eq_some_iff]

/-- Later questions change nothing about an earlier one. -/
theorem due?_concat {entry : HeldBar × Bool} (h : held.bar < entry.1.bar) :
    x.due? (log ++ [entry]) held = x.due? log held := by
  have hentered : enteredAt (log ++ [entry]) held.since held.bar =
      enteredAt log held.since held.bar :=
    (enteredAt_concat ..).trans (if_neg fun hfresh => Nat.not_le.2 h hfresh.2.2)
  rw [due?, due?, hentered]

end Question

end ExitOverlay

namespace Reconciliation

open ExitOverlay

section Step

variable {σ : Type} {sides : PositionType}

/-- **What a step can do:** the rule is not asked, and the position is opened on this bar or
nothing is held; or the rule is asked about what is held, and it is left or kept. -/
theorem step_cases (rule : ExitRule σ) (bar : ℕ) (p : Position) (s : σ) (buy sell : Bool) :
    (∃ row next, step sides rule bar p s buy sell = (row, .on bar next, s)) ∨
      ∃ side since fresh, p = .held side since ∧ step sides rule bar p s buy sell =
        let answer := rule s ⟨bar, side, since, fresh⟩
        if answer.1 then (.exit side, .flat, answer.2) else (.idle, p, answer.2) := by
  rcases htable : transition? sides p.side? buy sell with _ | ⟨row, next⟩
  · cases p with
    | flat => exact .inl ⟨.idle, none, step_flat htable⟩
    | held side since =>
      exact .inr ⟨side, since, opens side buy sell, rfl, step_held htable⟩
  · exact .inl ⟨row, next, step_of_some htable⟩

/-- **The rule knows what the questions say** of the position, when it comes to a bar. -/
structure Watched (x : ExitOverlay Float) (bar : ℕ) (rows : List TradeRow) (p : Position)
    (m : Memory Float) (log : Log) : Prop where
  /-- There is a row for each bar. -/
  length : rows.length = bar
  /-- A position was opened before. -/
  since : ∀ side since, p = .held side since → since < bar
  /-- Questions were asked before. -/
  asked : ∀ entry ∈ log, entry.1.bar < bar
  /-- Questions were asked in order of the bars. -/
  increasing : log.Pairwise (·.1.bar < ·.1.bar)
  /-- What is watched was opened before. -/
  tracked : ∀ t ∈ m.tracked, t.since < bar
  /-- What is known of the position. -/
  known : ∀ side since, p = .held side since → x.Armed →
    x.tracking m since = x.knowledge side since (enteredAt log since bar) bar
  /-- What was answered. -/
  answers : ∀ entry ∈ log, entry.2 = (x.due? log entry.1).isSome
  /-- What was written down. -/
  fired : m.fired = log.filterMap fun entry => (x.due? log entry.1).map (entry.1.bar, ·)
  /-- Where the rule has left, the position was closed. -/
  exits : ∀ entry ∈ log, entry.2 = true → rows[entry.1.bar]? = some (.exit entry.1.side)

variable {x : ExitOverlay Float} {bar : ℕ} {rows : List TradeRow} {p : Position}
  {m : Memory Float} {log : Log}

/-- Where the rule is not asked. -/
theorem Watched.unasked (h : Watched x bar rows p m log) (row : TradeRow) (next : Option Side) :
    Watched x (bar + 1) (rows ++ [row]) (.on bar next) m log where
  length := by rw [List.length_append, h.length]; rfl
  since side since hp := by
    cases next <;> cases hp
    exact Nat.lt_succ_self bar
  asked entry hentry := Nat.lt_succ_of_lt (h.asked entry hentry)
  increasing := h.increasing
  tracked t ht := Nat.lt_succ_of_lt (h.tracked t ht)
  known side since hp _ := by
    -- A position that was opened on this bar: nothing is watched yet that was opened there.
    cases next <;> cases hp
    rw [tracking_of_ne fun t ht => Nat.ne_of_lt (h.tracked t ht),
      enteredAt_of_le fun entry hentry => Nat.le_of_lt (h.asked entry hentry), knowledge,
      best_succ x side (Nat.le_refl bar), best_self, better_missing]
  answers := h.answers
  fired := h.fired
  exits entry hentry hleaves := by
    rw [List.getElem?_append_left (h.length ▸ h.asked entry hentry)]
    exact h.exits entry hentry hleaves

/-- A question about the position moves the bar on which it counts as entered if the signal is
there again, and leaves it elsewhere. -/
theorem Watched.enteredAt_concat (h : Watched x bar rows p m log) {side : Side} {since : ℕ}
    (hp : p = .held side since) (fresh leaves : Bool) {bound : ℕ} (hbound : bar ≤ bound) :
    enteredAt (log ++ [(⟨bar, side, since, fresh⟩, leaves)]) since bound =
      if fresh then bar else enteredAt log since bar := by
  have hcongr : enteredAt log since bound = enteredAt log since bar :=
    enteredAt_congr fun entry hentry =>
      have hlt := h.asked entry hentry
      ⟨Nat.le_of_lt (hlt.trans_le hbound), Nat.le_of_lt hlt⟩
  rw [ExitOverlay.enteredAt_concat, hcongr]
  simp only [h.since side since hp, hbound, and_true]

/-- **Where the rule is asked,** the reason that it has to leave is the one that is due. -/
theorem Watched.leaving?_eq (h : Watched x bar rows p m log) {side : Side} {since : ℕ}
    (hp : p = .held side since) (fresh leaves : Bool) :
    let held : HeldBar := ⟨bar, side, since, fresh⟩
    x.leaving? m held = x.due? (log ++ [(held, leaves)]) held := by
  intro held
  have hlt : enteredAt log since bar < bar := enteredAt_lt (h.since side since hp) h.asked
  rw [ExitOverlay.leaving?_eq held (Nat.le_of_lt hlt) (h.known side since hp), due?]
  show _ = if enteredAt (log ++ [(held, leaves)]) since bar < bar then x.cause? side
    (x.knowledge side since (enteredAt (log ++ [(held, leaves)]) since bar) (bar + 1))
    (x.close bar) else none
  rw [h.enteredAt_concat hp fresh leaves le_rfl]
  cases fresh with
  | true => exact (if_neg (Nat.lt_irrefl bar)).symm
  | false => exact (if_pos hlt).symm

/-- **Where the rule is asked,** and what is held is left or kept. -/
theorem Watched.answered (h : Watched x bar rows p m log) {side : Side} {since : ℕ}
    (hp : p = .held side since) (fresh : Bool) {row : TradeRow} {q : Position} :
    let held : HeldBar := ⟨bar, side, since, fresh⟩
    let answer := x.rule m held
    (answer.1 = true → row = .exit side ∧ q = .flat) → (answer.1 = false → q = p) →
      Watched x (bar + 1) (rows ++ [row]) q answer.2 (log ++ [(held, answer.1)]) := by
  intro held answer hleaves hstays
  have hsince : since < bar := h.since side since hp
  have hlt : enteredAt log since bar < bar := enteredAt_lt hsince h.asked
  have hdue := h.leaving?_eq hp fresh answer.1
  obtain ⟨hanswer, hfired⟩ := x.rule_spec m held
  have hlater : ∀ entry ∈ log, x.due? (log ++ [(held, answer.1)]) entry.1 = x.due? log entry.1 :=
    fun entry hentry => due?_concat (h.asked entry hentry)
  -- What is held afterwards is what was held before, and then the rule has stayed.
  have hkept : ∀ side' since', q = .held side' since' →
      answer.1 = false ∧ side' = side ∧ since' = since := by
    intro side' since' hq
    cases hleft : answer.1 with
    | true => exact nomatch (hleaves hleft).2.symm.trans hq
    | false =>
      cases (hp.symm.trans (hstays hleft).symm).trans hq
      exact ⟨rfl, rfl, rfl⟩
  refine
    { length := ?length, since := ?since, asked := ?asked, increasing := ?increasing,
      tracked := ?tracked, known := ?known, answers := ?answers, fired := ?fired, exits := ?exits }
  case length =>
    rw [List.length_append, h.length]
    rfl
  case since =>
    intro side' since' hq
    obtain ⟨-, -, rfl⟩ := hkept side' since' hq
    exact Nat.lt_succ_of_lt hsince
  case asked =>
    rw [List.forall_mem_append, List.forall_mem_singleton]
    exact ⟨fun entry hentry => Nat.lt_succ_of_lt (h.asked entry hentry), Nat.lt_succ_self bar⟩
  case increasing =>
    rw [List.pairwise_append]
    refine ⟨h.increasing, List.pairwise_singleton _ _, fun entry hentry other hother => ?_⟩
    rw [List.mem_singleton.1 hother]
    exact h.asked entry hentry
  case tracked =>
    intro t ht
    rcases tracked_rule m held t ht with hsince' | hbefore
    · rw [hsince']
      exact Nat.lt_succ_of_lt hsince
    · exact Nat.lt_succ_of_lt (h.tracked t hbefore)
  case known =>
    intro side' since' hq harmed
    obtain ⟨hleft, rfl, rfl⟩ := hkept side' since' hq
    rw [h.enteredAt_concat hp fresh answer.1 (Nat.le_succ bar)]
    have hknown := h.known side' since' hp harmed
    exact tracking_rule held (Nat.le_of_lt hlt) harmed hknown hleft
  case answers =>
    rw [List.forall_mem_append, List.forall_mem_singleton]
    refine ⟨fun entry hentry => ?_, ?_⟩
    · rw [hlater entry hentry]
      exact h.answers entry hentry
    · rw [← hdue]
      exact hanswer
  case fired =>
    rw [List.filterMap_append, List.filterMap_congr fun entry hentry => by rw [hlater entry hentry],
      ← h.fired, hfired, hdue, List.filterMap_cons, List.filterMap_nil]
    cases x.due? (log ++ [(held, answer.1)]) held <;> rfl
  case exits =>
    rw [List.forall_mem_append, List.forall_mem_singleton]
    refine ⟨fun entry hentry hleft => ?_, fun hleft => ?_⟩
    · rw [List.getElem?_append_left (h.length ▸ h.asked entry hentry)]
      exact h.exits entry hentry hleft
    · rw [(hleaves hleft).1, show held.bar = rows.length from h.length.symm]
      exact List.getElem?_concat_length

/-- **A step with a rule that writes down its questions** keeps all this. What is written as its
row may be another one, if something is held after it. -/
theorem Watched.step (h : Watched x bar rows p m log) (buy sell : Bool) {row : TradeRow}
    (hrow : (step sides x.rule.recording bar p (m, log) buy sell).2.1 = .flat →
      row = (Reconciliation.step sides x.rule.recording bar p (m, log) buy sell).1) :
    let after := Reconciliation.step sides x.rule.recording bar p (m, log) buy sell
    Watched x (bar + 1) (rows ++ [row]) after.2.1 after.2.2.1 after.2.2.2 := by
  rcases step_cases x.rule.recording bar p (m, log) buy sell with
    ⟨other, next, hstep⟩ | ⟨side, since, fresh, hp, hstep⟩
  · rw [hstep]
    exact h.unasked row next
  · rw [hstep] at hrow ⊢
    dsimp only at hrow ⊢
    by_cases hleft : (x.rule.recording (m, log) ⟨bar, side, since, fresh⟩).1 = true
    · rw [if_pos hleft] at hrow ⊢
      exact h.answered hp fresh (fun _ => ⟨hrow rfl, rfl⟩) fun hstays =>
        absurd (hleft.symm.trans hstays) Bool.true_eq_false.mp
    · rw [if_neg hleft]
      exact h.answered hp fresh (fun hleaves => absurd hleaves hleft) fun _ => rfl

/-- An advance from the first bar keeps this, too. -/
theorem watched_advance (sides : PositionType) (x : ExitOverlay Float)
    (bars : List (Bool × Bool)) :
    let before := advance sides x.rule.recording 0 .flat (.start, []) bars
    Watched x bars.length before.1 before.2.1 before.2.2.1 before.2.2.2 := by
  induction bars using List.reverseRecOn with
  | nil =>
    exact ⟨rfl, nofun, nofun, .nil, nofun, nofun, nofun, rfl, nofun⟩
  | append_singleton bars bar ih =>
    obtain ⟨buy, sell⟩ := bar
    rw [advance_concat, List.length_append, Nat.zero_add]
    exact ih.step buy sell fun _ => rfl

/-- **A walk keeps this,** also over the last bar: the rows there are settled only if something is
held. -/
theorem exists_watched_walk (sides : PositionType) (x : ExitOverlay Float)
    (bars : List (Bool × Bool)) :
    let done := walk sides x.rule.recording 0 .flat (.start, []) bars
    ∃ p, Watched x bars.length done.1 p done.2.1 done.2.2 := by
  rcases List.eq_nil_or_concat bars with rfl | ⟨first, ⟨buy, sell⟩, rfl⟩
  · exact ⟨.flat, watched_advance sides x []⟩
  · rw [List.concat_eq_append, walk_append first (List.cons_ne_nil _ _), walk_singleton,
      List.length_append, Nat.zero_add]
    refine ⟨_, (watched_advance sides x first).step buy sell fun hflat => ?_⟩
    rw [hflat]
    rfl

/-- What is known in the end says what the rule does. -/
theorem Watched.windowed (h : Watched x bar rows p m log) : x.Windowed log rows m.fired where
  answers held leaves hentry := by
    have hanswer : leaves = (x.due? log held).isSome := h.answers _ hentry
    rw [hanswer, Option.isSome_iff_exists]
    simp only [due?_eq_some_iff, exists_and_left]
  exits held hentry := h.exits _ hentry rfl
  increasing := by
    rw [h.fired, List.pairwise_filterMap]
    refine h.increasing.imp ?_
    rintro first second hlt ⟨_, _⟩ hfirst ⟨_, _⟩ hsecond
    obtain ⟨_, -, hfirst⟩ := Option.map_eq_some_iff.1 hfirst
    obtain ⟨_, -, hsecond⟩ := Option.map_eq_some_iff.1 hsecond
    cases hfirst
    cases hsecond
    exact hlt
  mem_fired bar cause := by
    rw [h.fired, List.mem_filterMap]
    constructor
    · rintro ⟨⟨held, leaves⟩, hentry, hdue⟩
      obtain ⟨_, hdue, heq⟩ := Option.map_eq_some_iff.1 hdue
      cases heq
      have hleaves : leaves = true := (h.answers _ hentry).trans (by rw [hdue]; rfl)
      exact ⟨held, hleaves ▸ hentry, rfl, (due?_eq_some_iff.1 hdue).2⟩
    · rintro ⟨held, hentry, rfl, hdue⟩
      have hsome : (x.due? log held).isSome = true := (h.answers _ hentry).symm
      obtain ⟨other, hother⟩ := Option.isSome_iff_exists.1 hsome
      have hlt := (due?_eq_some_iff.1 hother).1
      exact ⟨_, hentry, by rw [due?_eq_some_iff.2 ⟨hlt, hdue⟩]; rfl⟩

end Step

/-- **The exit rule, without its memory.** A reconciliation with the rule is one with a rule that
writes down what it is asked, and the questions are those that a reader of the rows finds. The
rule leaves on a bar if a threshold is hit there that is counted from the last bar before on which
the signal that opened the position was there again, or else from the one on which it was opened;
and not on that bar itself. Where it leaves, the position is closed. What is written down are
these bars, in order and each of them once, and the reasons. -/
theorem withExits_windowed (sides : PositionType) (x : ExitOverlay Float) (buy sell : List Bool) :
    let done := withExits sides x.rule .start buy sell
    let recorded := withExits sides x.rule.recording (.start, []) buy sell
    (recorded.1 = done.1 ∧ recorded.2.1 = done.2) ∧
      recorded.2.2.map (·.1) = (List.range (buy.zip sell).length).filterMap
        (question? sides (buy.zip sell) done.1) ∧
      x.Windowed recorded.2.2 done.1 done.2.fired := by
  intro done recorded
  obtain ⟨hrows, hmemory⟩ : recorded.1 = done.1 ∧ recorded.2.1 = done.2 :=
    walk_recording sides x.rule (buy.zip sell) 0 .flat .start []
  have hquestions := questions_walk sides x.rule .start (buy.zip sell)
  obtain ⟨p, hwatched⟩ := exists_watched_walk sides x (buy.zip sell)
  refine ⟨⟨hrows, hmemory⟩, ?_, ?_⟩
  · rw [← hrows]
    exact hquestions
  · rw [← hrows, ← hmemory]
    exact hwatched.windowed

end Reconciliation

end TradeSignals
