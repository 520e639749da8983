import Mathlib.Data.List.Nodup
import TradeSignals.Proofs.Trades.Questions

/-!
# The exit rule is asked on the bars that a position is carried through

The exit rule is a callback: what it does depends on which bars it is asked about, in what order,
and on whether its answer is kept. All of this can be read off the finished rows, although some of
their labels are rewritten after the rule was asked
(`TradeSignals.Reconciliation.withExits_consulted`).

The labels on one side of the market say when a position is there
(`TradeSignals.Reconciliation.Carried`), and say the same as the position that the walk holds
(`TradeSignals.Reconciliation.carried_iff`). What can become of a position on a bar is a list of
four cases, each with the final row and with what the rule was asked and answered
(`TradeSignals.Reconciliation.Outcome`). On the inside of a trade only one of the four is possible,
and at its end the other three are.
-/

namespace TradeSignals

/-- A position is opened on a side. -/
def TradeKind.entryOn : Side → TradeKind
  | .long => .longEntry
  | .short => .shortEntry

/-- A position on a side is closed. -/
def TradeKind.exitOn : Side → TradeKind
  | .long => .longExit
  | .short => .shortExit

/-- The change of a row on a side. -/
def TradeRow.change (row : TradeRow) (side : Side) : Option TradeKind :=
  side.pick row.long row.short

namespace Reconciliation

variable {σ : Type} {sides : PositionType} {rows : List TradeRow} {side : Side}

/-! ### Positions in the rows -/

/-- The label of a bar on a side, if there is one. -/
def labelAt (rows : List TradeRow) (side : Side) (bar : ℕ) : Option TradeKind :=
  rows[bar]?.bind (·.change side)

theorem lt_length_of_labelAt {bar : ℕ} {kind : TradeKind}
    (h : labelAt rows side bar = some kind) : bar < rows.length := by
  obtain ⟨row, hrow, -⟩ := Option.bind_eq_some_iff.1 h
  exact (List.getElem?_eq_some_iff.1 hrow).1

/-- **A position is there when a bar begins:** it was opened before, and there is no label of its
side in between. -/
structure Carried (rows : List TradeRow) (side : Side) (since bar : ℕ) : Prop where
  /-- It was opened before the bar. -/
  before : since < bar
  /-- The label of the bar on which it was opened says so. -/
  opened : labelAt rows side since = some (.entryOn side)
  /-- Nothing was done on its side since. -/
  between : ∀ b, since < b → b < bar → labelAt rows side b = none

/-- **A trade:** a position that is there until a bar closes it. -/
structure Trade (rows : List TradeRow) (side : Side) (first last : ℕ) : Prop extends
    Carried rows side first last where
  /-- The label of the last bar says so. -/
  closed : labelAt rows side last = some (.exitOn side)

/-- On the inside of a trade the position is there. -/
theorem Carried.of_lt {since bar bar' : ℕ} (h : Carried rows side since bar) (hsince : since < bar')
    (hbar : bar' ≤ bar) : Carried rows side since bar' :=
  ⟨hsince, h.opened, fun b hb hb' => h.between b hb (Nat.lt_of_lt_of_le hb' hbar)⟩

/-- When a bar is over, a position is there if the bar opened it, or if it was there before and
nothing was done on its side. -/
theorem carried_succ_iff {since bar : ℕ} :
    Carried rows side since (bar + 1) ↔
      since = bar ∧ labelAt rows side bar = some (.entryOn side) ∨
        Carried rows side since bar ∧ labelAt rows side bar = none := by
  constructor
  · intro h
    rcases Nat.lt_succ_iff_lt_or_eq.1 h.before with hlt | rfl
    · exact .inr ⟨h.of_lt hlt (Nat.le_succ bar), h.between bar hlt (Nat.lt_succ_self bar)⟩
    · exact .inl ⟨rfl, h.opened⟩
  · rintro (⟨rfl, hopened⟩ | ⟨h, hnone⟩)
    · exact ⟨Nat.lt_succ_self since, hopened, fun b hb hb' => absurd hb' (Nat.not_lt.2 hb)⟩
    · refine ⟨Nat.lt_succ_of_lt h.before, h.opened, fun b hb hb' => ?_⟩
      rcases Nat.lt_succ_iff_lt_or_eq.1 hb' with hlt | rfl
      · exact h.between b hb hlt
      · exact hnone

/-! ### The labels of moves -/

@[simp]
theorem change_idle (side : Side) : TradeRow.idle.change side = none := by
  cases side <;> rfl

@[simp]
theorem change_exit (side : Side) : (TradeRow.exit side).change side = some (.exitOn side) := by
  cases side <;> rfl

/-- **The labels of a move on a side say what is held there afterwards.** -/
theorem Move.held_iff {bar since : ℕ} {p q : Position} {row : TradeRow}
    (h : Move sides bar p row q) :
    q = .held side since ↔
      since = bar ∧ row.change side = some (.entryOn side) ∨
        p = .held side since ∧ row.change side = none := by
  -- The sides of the move and of the reader are the same one or opposite.
  cases h with
  | idle => simp
  | @entry moved => cases moved <;> cases side <;> simp [TradeRow.change, TradeRow.entry,
      Side.pick, TradeKind.entryOn, eq_comm]
  | @exit moved => cases moved <;> cases side <;> simp [TradeRow.change, TradeRow.exit,
      Side.pick, TradeKind.entryOn]
  | @reversal moved => cases moved <;> cases side <;> simp [TradeRow.change, TradeRow.reversal,
      Side.pick, Side.opposite, TradeKind.entryOn, eq_comm]

/-- A row that closes a position on a side closes the one that is held. -/
theorem Scheduled.side?_of_exit {buy sell fires : Bool} {held : Option Side} {row : TradeRow}
    (h : Scheduled sides buy sell fires held row)
    (hrow : row.change side = some (.exitOn side)) : held = some side := by
  cases h with
  | listed hlisted => cases hlisted <;> cases side <;> first | rfl | cases hrow
  | @left moved => cases moved <;> cases side <;> first | rfl | cases hrow
  | idle => cases (change_idle side).symm.trans hrow

/-- So does the row of the last bar. -/
theorem side?_of_closing {p : Position} (h : (closing p).change side = some (.exitOn side)) :
    p.side? = some side := by
  cases p with
  | flat => cases (change_idle side).symm.trans h
  | held moved => cases moved <;> cases side <;> first | rfl | cases h

section Walk

variable {bars : List (Bool × Bool)} {i : ℕ} {buy sell : Bool}

/-- The position of the walk when it comes to a bar is the one that the finished rows show. -/
theorem advance_eq_held_iff (rule : ExitRule σ) (s : σ) (hi : i < bars.length) {since : ℕ} :
    (advance sides rule 0 .flat s (bars.take i)).2.1 = .held side since ↔
      Carried (walk sides rule 0 .flat s bars).1 side since i := by
  induction i with
  | zero => exact ⟨nofun, fun h => absurd h.before (Nat.not_lt_zero since)⟩
  | succ i ih =>
    have hlt := Nat.lt_of_succ_lt hi
    have hbar : bars[i]? = some (bars[i].1, bars[i].2) := List.getElem?_eq_getElem hlt
    have hlength : (bars.take i).length = i := List.length_take_of_le (Nat.le_of_lt hlt)
    have hstanding := (moves_advance (p := .flat) sides 0 rule (bars.take i) s trivial).2
    have hrow := getElem?_walk sides rule hbar .flat s
    rw [hlength, Nat.zero_add] at hstanding
    dsimp only at hrow
    rw [if_pos hi] at hrow
    -- The row of the bar is not the last one, so it is that of a move.
    rw [carried_succ_iff, ← ih hlt, labelAt, hrow, List.take_succ_eq_append_getElem hlt,
      advance_concat, hlength, Nat.zero_add]
    exact (move_step rule hstanding _ _ _).held_iff

/-- **The labels on a side show the position** that all the labels replay to. -/
theorem carried_iff (rule : ExitRule σ) (s : σ) (hi : i < bars.length) {p : Position}
    (hp : Position.flat.replay? (events ((walk sides rule 0 .flat s bars).1.take i)) = some p)
    {since : ℕ} :
    p = .held side since ↔ Carried (walk sides rule 0 .flat s bars).1 side since i := by
  rw [← advance_eq_held_iff rule s hi]
  rw [take_walk hi, replay?_advance] at hp
  rw [Option.some.inj hp]

/-- A bar that closes a position closes one that is there. -/
theorem exists_carried (rule : ExitRule σ) (s : σ) (hbar : bars[i]? = some (buy, sell))
    (h : labelAt (walk sides rule 0 .flat s bars).1 side i = some (.exitOn side)) :
    ∃ since, Carried (walk sides rule 0 .flat s bars).1 side since i := by
  obtain ⟨hi, -⟩ := List.getElem?_eq_some_iff.1 hbar
  obtain ⟨p, row, hreplay, -, hscheduled, -, hrow⟩ := exists_standing rule s hbar
  have hside : p.side? = some side := by
    rw [labelAt, hrow, Option.bind_some] at h
    split at h
    · exact hscheduled.side?_of_exit h
    · exact side?_of_closing h
  cases p with
  | flat => cases hside
  | held held since =>
    cases hside
    exact ⟨since, (carried_iff rule s hi hreplay).1 rfl⟩

/-! ### What becomes of a position -/

/-- **What may become of a position on a bar:** the final row of the bar, and what the rule was
asked and answered, if it was. Given are the number of bars and the signals of this one. -/
inductive Outcome (sides : PositionType) (count bar : ℕ) (side : Side) (since : ℕ)
    (buy sell : Bool) : TradeRow → Option (HeldBar × Bool) → Prop
  /-- The signals close or turn it, and the rule is not asked. On the last bar it is not turned. -/
  | signalled {row : TradeRow} (h : Listed sides (some side) buy sell row) :
      Outcome sides count bar side since buy sell (if bar + 1 < count then row else .exit side) none
  /-- The rule leaves it. -/
  | left :
      Outcome sides count bar side since buy sell (.exit side)
        (some (⟨bar, side, since, opens side buy sell⟩, true))
  /-- The rule keeps it. -/
  | kept (hmore : bar + 1 < count) :
      Outcome sides count bar side since buy sell .idle
        (some (⟨bar, side, since, opens side buy sell⟩, false))
  /-- The rule keeps it, but the bars end. -/
  | ended (hlast : bar + 1 = count) :
      Outcome sides count bar side since buy sell (.exit side)
        (some (⟨bar, side, since, opens side buy sell⟩, false))

/-- **One of the four becomes of every position.** -/
theorem outcome_walk (rule : ExitRule σ) (s : σ) (hbar : bars[i]? = some (buy, sell)) {since : ℕ}
    (h : Carried (walk sides rule 0 .flat s bars).1 side since i) :
    ∃ row, (walk sides rule 0 .flat s bars).1[i]? = some row ∧
      Outcome sides bars.length i side since buy sell row
        (exchange? sides rule s bars (walk sides rule 0 .flat s bars).1 i) := by
  obtain ⟨hi, -⟩ := List.getElem?_eq_some_iff.1 hbar
  obtain ⟨p, row, hreplay, -, hscheduled, -, hrow⟩ := exists_standing rule s hbar
  obtain rfl := (carried_iff rule s hi hreplay).2 h
  have hexchange : exchange? sides rule s bars (walk sides rule 0 .flat s bars).1 i =
      (asked? sides i (.held side since) buy sell).map fun held =>
        (held, fires sides rule s bars (walk sides rule 0 .flat s bars).1 i) := by
    rw [exchange?, question?, hreplay, hbar]
    rfl
  refine ⟨_, hrow, ?_⟩
  rw [hexchange]
  cases hscheduled with
  | listed hlisted =>
    rw [asked?_eq_none hlisted]
    exact .signalled hlisted
  | left hnone hfires =>
    rw [asked?_held hnone, hfires, closing, ite_self]
    exact .left
  | idle hnone hidle =>
    rcases hidle with hflat | hfires
    · cases hflat
    rw [asked?_held hnone, hfires]
    by_cases hmore : i + 1 < bars.length
    · rw [if_pos hmore]
      exact .kept hmore
    · rw [if_neg hmore]
      exact .ended (Nat.le_antisymm hi (Nat.not_lt.1 hmore))

/-- What is asked about a bar is asked of a position that is there. -/
theorem carried_of_exchange? (rule : ExitRule σ) (s : σ) (hbar : bars[i]? = some (buy, sell))
    {entry : HeldBar × Bool}
    (h : exchange? sides rule s bars (walk sides rule 0 .flat s bars).1 i = some entry) :
    entry.1.bar = i ∧ Carried (walk sides rule 0 .flat s bars).1 entry.1.side entry.1.since i ∧
      entry.1.freshEntry = opens entry.1.side buy sell := by
  obtain ⟨hi, -⟩ := List.getElem?_eq_some_iff.1 hbar
  obtain ⟨p, -, hreplay, -⟩ := exists_standing rule s hbar
  obtain ⟨held, hasked, rfl⟩ := Option.map_eq_some_iff.1 h
  rw [question?, hreplay, hbar] at hasked
  replace hasked : asked? sides i p buy sell = some held := hasked
  cases p with
  | flat => cases hasked
  | held side since =>
    rw [asked?] at hasked
    split at hasked
    · cases hasked
    · cases hasked
      exact ⟨rfl, (carried_iff rule s hi hreplay).1 rfl, rfl⟩

/-- Where the rule says yes, the position is closed and nothing else is done. -/
theorem exit_of_exchange? (rule : ExitRule σ) (s : σ) (hbar : bars[i]? = some (buy, sell))
    {held : HeldBar}
    (h : exchange? sides rule s bars (walk sides rule 0 .flat s bars).1 i = some (held, true)) :
    (walk sides rule 0 .flat s bars).1[i]? = some (.exit held.side) := by
  obtain ⟨-, hcarried, -⟩ := carried_of_exchange? rule s hbar h
  obtain ⟨row, hrow, houtcome⟩ := outcome_walk rule s hbar hcarried
  generalize hexchange : exchange? sides rule s bars _ i = exchange at h houtcome
  cases houtcome with
  | signalled => cases h
  | left => exact hrow
  | kept => exact absurd (congrArg Prod.snd (Option.some.inj h)) Bool.false_ne_true
  | ended => exact absurd (congrArg Prod.snd (Option.some.inj h)) Bool.false_ne_true

end Walk

/-- A transition of a position closes it. -/
theorem Listed.change {buy sell : Bool} {row : TradeRow}
    (h : Listed sides (some side) buy sell row) : row.change side = some (.exitOn side) := by
  cases h <;> rfl

section Outcome

variable {count bar since : ℕ} {buy sell : Bool} {row : TradeRow}
  {exchange : Option (HeldBar × Bool)}

/-- Where a position is not closed, the rule was asked and said no. -/
theorem Outcome.eq_of_kept (h : Outcome sides count bar side since buy sell row exchange)
    (hrow : row.change side = none) :
    exchange = some (⟨bar, side, since, opens side buy sell⟩, false) := by
  cases h with
  | signalled hlisted =>
    split at hrow
    · cases hlisted.change.symm.trans hrow
    · cases (change_exit side).symm.trans hrow
  | left => cases (change_exit side).symm.trans hrow
  | kept => rfl
  | ended => rfl

/-- Where a position is closed, it was the rule, a signal, or the end of the bars. -/
theorem Outcome.of_closed (h : Outcome sides count bar side since buy sell row exchange)
    (hrow : row.change side = some (.exitOn side)) :
    exchange = some (⟨bar, side, since, opens side buy sell⟩, true) ∨
      (exchange = none ∧ ∃ row, Listed sides (some side) buy sell row) ∨
      (bar + 1 = count ∧ exchange = some (⟨bar, side, since, opens side buy sell⟩, false)) := by
  cases h with
  | signalled hlisted => exact .inr (.inl ⟨rfl, _, hlisted⟩)
  | left => exact .inl rfl
  | kept => cases (change_idle side).symm.trans hrow
  | ended hlast => exact .inr (.inr ⟨hlast, rfl⟩)

end Outcome

/-! ### The log of the questions -/

/-- What the rule was asked about a bar and answered. -/
def askedAt (log : List (HeldBar × Bool)) (bar : ℕ) : List (HeldBar × Bool) :=
  log.filter (·.1.bar == bar)

/-- **The rule is asked on the bars that a position is carried through, and its answer is final:**
what a log of its questions and answers says of the finished rows. -/
structure Consulted (sides : PositionType) (buy sell : List Bool) (rows : List TradeRow)
    (log : List (HeldBar × Bool)) : Prop where
  /-- It is asked about one bar after the other. -/
  increasing : log.Pairwise (·.1.bar < ·.1.bar)
  /-- It is asked about a position that is there, and told what the signal says. -/
  held : ∀ entry ∈ log, Carried rows entry.1.side entry.1.since entry.1.bar ∧
    (entry.1.side.pick buy sell)[entry.1.bar]? = some entry.1.freshEntry
  /-- Every label that closes a position is the end of a trade. -/
  trades : ∀ side last, labelAt rows side last = some (.exitOn side) →
    ∃ first, Trade rows side first last
  /-- On the inside of a trade it is asked about every bar, once, and says no. -/
  inside : ∀ side first last bar, Trade rows side first last → first < bar → bar < last →
    ∃ fresh, askedAt log bar = [(⟨bar, side, first, fresh⟩, false)]
  /-- At the end of a trade it says yes, or a signal closes or turns the position and it is not
  asked, or it says no and the bars end. -/
  ending : ∀ side first last, Trade rows side first last →
    (∃ fresh, askedAt log last = [(⟨last, side, first, fresh⟩, true)]) ∨
      (askedAt log last = [] ∧ ∃ b c row, buy[last]? = some b ∧ sell[last]? = some c ∧
        Listed sides (some side) b c row) ∨
      (last + 1 = min buy.length sell.length ∧
        ∃ fresh, askedAt log last = [(⟨last, side, first, fresh⟩, false)])
  /-- Where it says yes, the position is closed and nothing else is done. -/
  left : ∀ held, (held, true) ∈ log → rows[held.bar]? = some (.exit held.side)

section Log

variable {f : ℕ → Option (HeldBar × Bool)} {count : ℕ}
  (hf : ∀ i < count, ∀ entry, f i = some entry → entry.1.bar = i)

include hf

/-- What is collected bar by bar, each time about that bar, is in the order of the bars. -/
theorem increasing_filterMap_range :
    ((List.range count).filterMap f).Pairwise (·.1.bar < ·.1.bar) := by
  refine List.pairwise_filterMap.2 (List.pairwise_lt_range.imp_of_mem ?_)
  intro i j hi hj hlt entry hentry other hother
  rw [hf i (List.mem_range.1 hi) entry hentry, hf j (List.mem_range.1 hj) other hother]
  exact hlt

/-- There is nothing about a bar in it but what was collected on that bar. -/
theorem askedAt_filterMap_range {bar : ℕ} (hbar : bar < count) :
    askedAt ((List.range count).filterMap f) bar = (f bar).toList := by
  have hown : ∀ i ∈ List.range count, (f i).filter (·.1.bar == bar) =
      if (i == bar) = true then f i else none := by
    intro i hi
    rcases hentry : f i with _ | entry
    · rw [ite_self]
      rfl
    · rw [Option.filter_some, hf i (List.mem_range.1 hi) entry hentry]
  have hmem : (List.range count).count bar = 1 :=
    List.count_eq_one_of_mem List.nodup_range (List.mem_range.2 hbar)
  rw [askedAt, List.filter_filterMap, List.filterMap_congr hown, ← List.filterMap_filter,
    List.filter_beq, hmem]
  cases h : f bar <;> simp [h]

end Log

/-! ### Reconciliations -/

section Reconciled

variable (sides) (rule : ExitRule σ) (s : σ) (buy sell : List Bool)

/-- Every bar has its signals. -/
theorem exists_signals {i : ℕ} (hi : i < (buy.zip sell).length) :
    ∃ b c, buy[i]? = some b ∧ sell[i]? = some c ∧ (buy.zip sell)[i]? = some (b, c) := by
  have hbar : (buy.zip sell)[i]? = some ((buy.zip sell)[i].1, (buy.zip sell)[i].2) :=
    List.getElem?_eq_getElem hi
  obtain ⟨hbuy, hsell⟩ := List.getElem?_zip_eq_some.1 hbar
  exact ⟨_, _, hbuy, hsell, hbar⟩

/-- What is asked about a bar is about that bar. -/
theorem bar_of_exchange? {i : ℕ} (hi : i < (buy.zip sell).length) {entry : HeldBar × Bool}
    (h : exchange? sides rule s (buy.zip sell) (withExits sides rule s buy sell).1 i =
      some entry) : entry.1.bar = i := by
  obtain ⟨b, c, -, -, hbar⟩ := exists_signals buy sell hi
  exact (carried_of_exchange? rule s hbar h).1

/-- An entry of the log was written on its own bar, which has its signals. -/
theorem exists_of_mem_log {entry : HeldBar × Bool}
    (h : entry ∈ (withExits sides rule.recording (s, []) buy sell).2.2) :
    ∃ b c, buy[entry.1.bar]? = some b ∧ sell[entry.1.bar]? = some c ∧
      (buy.zip sell)[entry.1.bar]? = some (b, c) ∧
      exchange? sides rule s (buy.zip sell) (withExits sides rule s buy sell).1 entry.1.bar =
        some entry := by
  rw [show (withExits sides rule.recording (s, []) buy sell).2.2 = _ from log_walk ..] at h
  obtain ⟨i, hi, h⟩ := List.mem_filterMap.1 h
  obtain rfl : entry.1.bar = i := bar_of_exchange? sides rule s buy sell (List.mem_range.1 hi) h
  obtain ⟨b, c, hbuy, hsell, hbar⟩ := exists_signals buy sell (List.mem_range.1 hi)
  exact ⟨b, c, hbuy, hsell, hbar, h⟩

/-- **What becomes of a position on a bar, and what the log says of that bar.** -/
theorem exists_outcome {since bar : ℕ} (hbar : bar < (withExits sides rule s buy sell).1.length)
    (h : Carried (withExits sides rule s buy sell).1 side since bar) :
    ∃ b c row exchange, buy[bar]? = some b ∧ sell[bar]? = some c ∧
      labelAt (withExits sides rule s buy sell).1 side bar = row.change side ∧
      Outcome sides (min buy.length sell.length) bar side since b c row exchange ∧
      askedAt (withExits sides rule.recording (s, []) buy sell).2.2 bar = exchange.toList := by
  rw [show (withExits sides rule s buy sell).1.length = _ from length_walk ..] at hbar
  obtain ⟨b, c, hbuy, hsell, hget⟩ := exists_signals buy sell hbar
  obtain ⟨row, hrow, houtcome⟩ := outcome_walk rule s hget h
  rw [List.length_zip] at houtcome
  refine ⟨b, c, row, _, hbuy, hsell, ?_, houtcome, ?_⟩
  · rw [labelAt, show (withExits sides rule s buy sell).1[bar]? = some row from hrow]
    rfl
  · rw [show (withExits sides rule.recording (s, []) buy sell).2.2 = _ from log_walk ..]
    exact askedAt_filterMap_range (fun i hi _ => bar_of_exchange? sides rule s buy sell hi) hbar

end Reconciled

/-- **The exit rule is asked on exactly the bars that a position is carried through, and its answer
is final,** whatever the rule is, whatever it remembers and whatever the signals are. -/
theorem withExits_consulted (sides : PositionType) (rule : ExitRule σ) (s : σ)
    (buy sell : List Bool) :
    let done := withExits sides rule s buy sell
    let recorded := withExits sides rule.recording (s, []) buy sell
    (recorded.1 = done.1 ∧ recorded.2.1 = done.2) ∧
      Consulted sides buy sell done.1 recorded.2.2 := by
  intro done recorded
  refine ⟨walk_recording sides rule (buy.zip sell) 0 .flat s [],
    ⟨?increasing, ?held, ?trades, ?inside, ?ending, ?left⟩⟩
  case increasing =>
    rw [show recorded.2.2 = _ from log_walk ..]
    exact increasing_filterMap_range fun i hi _ => bar_of_exchange? sides rule s buy sell hi
  case held =>
    intro entry hmem
    obtain ⟨b, c, hbuy, hsell, hbar, h⟩ := exists_of_mem_log sides rule s buy sell hmem
    obtain ⟨-, hcarried, hfresh⟩ := carried_of_exchange? rule s hbar h
    refine ⟨hcarried, ?_⟩
    rw [hfresh]
    cases entry.1.side
    · exact hbuy
    · exact hsell
  case trades =>
    intro side last h
    have hlast := lt_length_of_labelAt h
    rw [show done.1.length = _ from length_walk ..] at hlast
    obtain ⟨b, c, -, -, hbar⟩ := exists_signals buy sell hlast
    obtain ⟨first, hcarried⟩ := exists_carried rule s hbar h
    exact ⟨first, hcarried, h⟩
  case inside =>
    intro side first last bar htrade hfirst hlast
    have hbar := Nat.lt_trans hlast (lt_length_of_labelAt htrade.closed)
    obtain ⟨b, c, row, exchange, -, -, hlabel, houtcome, hasked⟩ :=
      exists_outcome sides rule s buy sell hbar (htrade.of_lt hfirst (Nat.le_of_lt hlast))
    rw [htrade.between bar hfirst hlast] at hlabel
    rw [houtcome.eq_of_kept hlabel.symm] at hasked
    exact ⟨_, hasked⟩
  case ending =>
    intro side first last htrade
    have hbar := lt_length_of_labelAt htrade.closed
    obtain ⟨b, c, row, exchange, hbuy, hsell, hlabel, houtcome, hasked⟩ :=
      exists_outcome sides rule s buy sell hbar htrade.toCarried
    rw [htrade.closed] at hlabel
    rcases houtcome.of_closed hlabel.symm with rfl | ⟨rfl, row, hlisted⟩ | ⟨hend, rfl⟩
    · exact .inl ⟨_, hasked⟩
    · exact .inr (.inl ⟨hasked, b, c, row, hbuy, hsell, hlisted⟩)
    · exact .inr (.inr ⟨hend, _, hasked⟩)
  case left =>
    intro held hmem
    obtain ⟨b, c, -, -, hbar, h⟩ := exists_of_mem_log sides rule s buy sell hmem
    exact exit_of_exchange? rule s hbar h

end Reconciliation

end TradeSignals
