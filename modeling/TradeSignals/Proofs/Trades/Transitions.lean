import TradeSignals.Proofs.Trades.History

/-!
# Every row is the one that the table of transitions gives

The table of transitions says what signals do to a position
(`TradeSignals.Reconciliation.Listed`), and from it and the answer of the exit rule
follows the row of a bar (`TradeSignals.Reconciliation.Scheduled`); the last bar has a
table of its own (`TradeSignals.Reconciliation.Settled`). The position in these tables is
not the one the walk has in hand but the one that a reader finds by replaying the labels
of the rows before the bar, and the memory of the rule is what the rule remembers after
it was asked, in turn, about every bar on which such a reader finds a position held and
no transition listed (`TradeSignals.Reconciliation.memoryAt`). The tables leave no choice
(`TradeSignals.Reconciliation.Scheduled.unique`), so the finished rows alone decide what
every row must be (`TradeSignals.Reconciliation.withExits_scheduled`).

The walk and the reader agree on every bar: the labels of an advance replay to the
position after it, because they are moves, and then the rule was asked the same
questions.
-/

namespace TradeSignals

namespace Reconciliation

variable {σ : Type} {sides : PositionType} {rule : ExitRule σ}

/-! ### The tables -/

/-- **The table of transitions:** which sides may be taken, the side that is held, the
signals to buy and to sell, and the row of a bar on which these change the position. -/
inductive Listed : PositionType → Option Side → Bool → Bool → TradeRow → Prop
  /-- Long only: a buy without a sell opens. -/
  | openLong : Listed .long none true false (.entry .long)
  /-- Long only: a sell closes. -/
  | closeLong {buy : Bool} : Listed .long (some .long) buy true (.exit .long)
  /-- Short only: a sell without a buy opens. -/
  | openShort : Listed .short none false true (.entry .short)
  /-- Short only: a buy closes. -/
  | closeShort {sell : Bool} : Listed .short (some .short) true sell (.exit .short)
  /-- Both sides: a buy alone opens. -/
  | buyAlone : Listed .longShort none true false (.entry .long)
  /-- Both sides: a sell alone opens. -/
  | sellAlone : Listed .longShort none false true (.entry .short)
  /-- Both sides: a sell alone turns a long position. -/
  | turnLong : Listed .longShort (some .long) false true (.reversal .long)
  /-- Both sides: a buy alone turns a short position. -/
  | turnShort : Listed .longShort (some .short) true false (.reversal .short)

/-- **The row of a bar:** the transition that is listed, or else the exit of the side that
is held if the rule fires, or else nothing. -/
inductive Scheduled (sides : PositionType) (buy sell : Bool) (fires : Bool) :
    Option Side → TradeRow → Prop
  /-- The signals change the position. -/
  | listed {held : Option Side} {row : TradeRow} (h : Listed sides held buy sell row) :
      Scheduled sides buy sell fires held row
  /-- The rule fires on what is held. -/
  | left {side : Side} (h : ∀ row, ¬Listed sides (some side) buy sell row)
      (hfires : fires = true) : Scheduled sides buy sell fires (some side) (.exit side)
  /-- Nothing happens. -/
  | idle {held : Option Side} (h : ∀ row, ¬Listed sides held buy sell row)
      (hfires : held = none ∨ fires = false) : Scheduled sides buy sell fires held .idle

/-- **What the last bar makes of its row,** given the side that was held before it. -/
inductive Settled : Option Side → TradeRow → TradeRow → Prop
  /-- A position that was opened there is taken back with its signal. -/
  | opened {side : Side} : Settled none (.entry side) .idle
  /-- Of a turn the exit and its flag are kept. -/
  | turned {side : Side} : Settled (some side) (.reversal side) (.exit side)
  /-- An exit is left as it is. -/
  | exited {side : Side} : Settled (some side) (.exit side) (.exit side)
  /-- What is still carried is closed. -/
  | carried {side : Side} : Settled (some side) .idle (.exit side)
  /-- Nothing was held and nothing happens. -/
  | nothing : Settled none .idle .idle

/-! ### What a reader of the rows finds -/

/-- What the rule is asked about a bar, if anything: a position is held, and the table
lists no transition. -/
def asked? (sides : PositionType) (bar : Nat) (p : Position) (buy sell : Bool) :
    Option HeldBar :=
  match p with
  | .flat => none
  | .held side since =>
    if (transition? sides (some side) buy sell).isSome then none
    else some ⟨bar, side, since, opens side buy sell⟩

/-- What the rule is asked about a bar, if anything, where the position is the one that
the labels of the rows before the bar replay to. -/
def question? (sides : PositionType) (bars : List (Bool × Bool)) (rows : List TradeRow)
    (bar : Nat) : Option HeldBar := do
  let p ← Position.flat.replay? (events (rows.take bar))
  let (buy, sell) ← bars[bar]?
  asked? sides bar p buy sell

/-- What the rule remembers when a bar begins, after all the questions before it. -/
def memoryAt (sides : PositionType) (rule : ExitRule σ) (s : σ) (bars : List (Bool × Bool))
    (rows : List TradeRow) : Nat → σ
  | 0 => s
  | bar + 1 =>
    let s := memoryAt sides rule s bars rows bar
    (question? sides bars rows bar).elim s fun held => (rule s held).2

/-- Does the rule fire on a bar? -/
def fires (sides : PositionType) (rule : ExitRule σ) (s : σ) (bars : List (Bool × Bool))
    (rows : List TradeRow) (bar : Nat) : Bool :=
  (question? sides bars rows bar).elim false fun held =>
    (rule (memoryAt sides rule s bars rows bar) held).1

/-! ### The tables and the step -/

variable {buy sell : Bool} {held : Option Side}

/-- The transitions that are listed are those of a step. -/
theorem transition?_eq_some_iff {row : TradeRow} :
    (∃ next, transition? sides held buy sell = some (row, next)) ↔
      Listed sides held buy sell row := by
  constructor
  · rintro ⟨next, h⟩
    -- Every combination of sides and signals is either a line of the table or refused by it.
    rcases held with _ | side
    · cases sides <;> cases buy <;> cases sell <;> cases h <;> constructor
    · cases sides <;> cases side <;> cases buy <;> cases sell <;> cases h <;> constructor
  · intro h
    cases h with
    | closeLong => exact ⟨_, by cases buy <;> rfl⟩
    | closeShort => exact ⟨_, by cases sell <;> rfl⟩
    | _ => exact ⟨_, rfl⟩

theorem transition?_eq_none_iff :
    transition? sides held buy sell = none ↔ ∀ row, ¬Listed sides held buy sell row := by
  rw [← Option.not_isSome_iff_eq_none, Option.isSome_iff_exists]
  constructor
  · intro h row hrow
    obtain ⟨next, hnext⟩ := transition?_eq_some_iff.mpr hrow
    exact h ⟨_, hnext⟩
  · rintro h ⟨⟨row, next⟩, hnext⟩
    exact h row (transition?_eq_some_iff.mp ⟨next, hnext⟩)

/-- The table lists one row at most. -/
theorem Listed.unique {row other : TradeRow} (h : Listed sides held buy sell row)
    (h' : Listed sides held buy sell other) : row = other := by
  obtain ⟨next, hnext⟩ := transition?_eq_some_iff.mpr h
  obtain ⟨next', hnext'⟩ := transition?_eq_some_iff.mpr h'
  rw [hnext] at hnext'
  cases hnext'
  rfl

/-- There is one row for a bar. -/
theorem Scheduled.unique {fires : Bool} {row other : TradeRow}
    (h : Scheduled sides buy sell fires held row)
    (h' : Scheduled sides buy sell fires held other) : row = other := by
  -- The three ways exclude each other: by the table, and by whether the rule fires.
  cases h with
  | listed h =>
    cases h' with
    | listed h' => exact h.unique h'
    | left h' => exact absurd h (h' _)
    | idle h' => exact absurd h (h' _)
  | left h hfires =>
    cases h' with
    | listed h' => exact absurd h' (h _)
    | left => rfl
    | idle _ hidle =>
      rcases hidle with hheld | hfires'
      · cases hheld
      · exact absurd (hfires.symm.trans hfires') Bool.noConfusion
  | idle h hidle =>
    cases h' with
    | listed h' => exact absurd h' (h _)
    | left _ hfires =>
      rcases hidle with hheld | hfires'
      · cases hheld
      · exact absurd (hfires.symm.trans hfires') Bool.noConfusion
    | idle => rfl

/-- **The last bar settles its move** as its table says. -/
theorem Move.settled {bar : ℕ} {p q : Position} {row : TradeRow} (h : Move sides bar p row q) :
    Settled p.side? row (closing p) := by
  cases h with
  | idle =>
    cases p with
    | flat => exact .nothing
    | held => exact .carried
  | entry => exact .opened
  | exit => exact .exited
  | reversal => exact .turned

/-! ### A step and its question -/

section Step

variable {bar : ℕ} {p : Position} {s : σ}

/-- The row of a step is the one that the tables give. -/
theorem scheduled_step :
    Scheduled sides buy sell
      ((asked? sides bar p buy sell).elim false fun held => (rule s held).1) p.side?
      (step sides rule bar p s buy sell).1 := by
  rcases htable : transition? sides p.side? buy sell with _ | ⟨row, next⟩
  · have hnone := transition?_eq_none_iff.mp htable
    cases p with
    | flat =>
      rw [step_flat htable]
      exact .idle hnone (.inl rfl)
    | held side since =>
      have hasked : asked? sides bar (.held side since) buy sell =
          some ⟨bar, side, since, opens side buy sell⟩ := by
        rw [asked?, show transition? sides (some side) buy sell = none from htable]
        rfl
      rw [step_held htable, hasked, Option.elim_some]
      split
      next hleaves => exact .left hnone hleaves
      next hstays => exact .idle hnone (.inr (Bool.eq_false_iff.mpr hstays))
  · rw [step_of_some htable]
    exact .listed (transition?_eq_some_iff.mp ⟨next, htable⟩)

/-- What the rule remembers after a step: it was asked its question, or it was not. -/
theorem memory_step :
    (step sides rule bar p s buy sell).2.2 =
      (asked? sides bar p buy sell).elim s fun held => (rule s held).2 := by
  -- A transition and an empty position leave the rule unasked, in the step as in the question.
  rcases htable : transition? sides p.side? buy sell with _ | ⟨row, next⟩
  · cases p with
    | flat =>
      rw [step_flat htable]
      rfl
    | held side since =>
      rw [step_held htable, asked?, show transition? sides (some side) buy sell = none from htable]
      split <;> rfl
  · rw [step_of_some htable]
    cases p with
    | flat => rfl
    | held side since =>
      rw [asked?, show transition? sides (some side) buy sell = some (row, next) from htable]
      rfl

end Step

/-! ### The walk and the reader agree -/

section Reader

variable {s : σ} {bars : List (Bool × Bool)} {i : ℕ}

/-- The labels of an advance replay to the position after it. -/
theorem replay?_advance (sides : PositionType) (rule : ExitRule σ) (s : σ)
    (bars : List (Bool × Bool)) :
    Position.flat.replay? (events (advance sides rule 0 .flat s bars).1) =
      some (advance sides rule 0 .flat s bars).2.1 :=
  (moves_advance (p := .flat) sides 0 rule bars s trivial).1.replay?

/-- The question about a bar is the one asked at the position that the advance to it ends
with. -/
theorem question?_walk (hbar : bars[i]? = some (buy, sell)) :
    question? sides bars (walk sides rule 0 .flat s bars).1 i =
      asked? sides i (advance sides rule 0 .flat s (bars.take i)).2.1 buy sell := by
  obtain ⟨hi, -⟩ := List.getElem?_eq_some_iff.mp hbar
  rw [question?, take_walk hi, replay?_advance, hbar]
  rfl

/-- **The reader's memory is the rule's:** it was asked the same questions. -/
theorem memoryAt_walk (hi : i < bars.length) :
    memoryAt sides rule s bars (walk sides rule 0 .flat s bars).1 i =
      (advance sides rule 0 .flat s (bars.take i)).2.2 := by
  -- Bar by bar: the reader adds the question that the step on that bar asks, if any.
  induction i with
  | zero => rfl
  | succ i ih =>
    have hlt := Nat.lt_of_succ_lt hi
    have hbar : bars[i]? = some (bars[i].1, bars[i].2) := List.getElem?_eq_getElem hlt
    have hlength : (bars.take i).length = i := List.length_take_of_le (Nat.le_of_lt hlt)
    rw [memoryAt, ih hlt, question?_walk hbar, ← memory_step, List.take_succ_eq_append_getElem hlt,
      advance_concat, hlength, Nat.zero_add]

/-- Whether the rule fires on a bar, in terms of where the advance to it ends. -/
theorem fires_walk (sides : PositionType) (rule : ExitRule σ) (s : σ)
    (hbar : bars[i]? = some (buy, sell)) :
    fires sides rule s bars (walk sides rule 0 .flat s bars).1 i =
      (asked? sides i (advance sides rule 0 .flat s (bars.take i)).2.1 buy sell).elim false
        fun held => (rule (advance sides rule 0 .flat s (bars.take i)).2.2 held).1 := by
  obtain ⟨hi, -⟩ := List.getElem?_eq_some_iff.mp hbar
  rw [fires, question?_walk hbar, memoryAt_walk hi]

end Reader

/-- **Every row is the one that the tables give** at the position that the labels of the
rows before it replay to: the row of the table of transitions and the rule on a bar that
is not the last, and what the last bar makes of it on that one. -/
theorem withExits_scheduled (rule : ExitRule σ) (s : σ) {buy sell : List Bool} {i : ℕ}
    {b c : Bool} (hbuy : buy[i]? = some b) (hsell : sell[i]? = some c) :
    let bars := buy.zip sell
    let rows := (withExits sides rule s buy sell).1
    ∃ p row, Position.flat.replay? (events (rows.take i)) = some p ∧
      Scheduled sides b c (fires sides rule s bars rows i) p.side? row ∧
      (i + 1 < min buy.length sell.length → rows[i]? = some row) ∧
      (i + 1 = min buy.length sell.length →
        ∃ last, Settled p.side? row last ∧ rows[i]? = some last) := by
  intro bars rows
  have hrows : rows = (walk sides rule 0 .flat s bars).1 := rfl
  have hbar : bars[i]? = some (b, c) := List.getElem?_zip_eq_some.mpr ⟨hbuy, hsell⟩
  obtain ⟨hi, -⟩ := List.getElem?_eq_some_iff.mp hbar
  have hlength : bars.length = min buy.length sell.length := List.length_zip
  -- Where the walk stands when it comes to the bar, and the move that it makes there.
  have hstanding := (moves_advance (p := .flat) sides 0 rule (bars.take i) s trivial).2
  have hreplay := replay?_advance sides rule s (bars.take i)
  have hfires := fires_walk sides rule s hbar
  have hget := getElem?_walk sides rule hbar .flat s
  rw [← take_walk hi, ← hrows] at hreplay
  rw [← hrows] at hfires hget
  obtain ⟨⟨_, p, t⟩, hbefore⟩ : ∃ before, advance sides rule 0 .flat s (bars.take i) = before :=
    ⟨_, rfl⟩
  rw [hbefore] at hstanding hreplay hfires hget
  rw [List.length_take_of_le (Nat.le_of_lt hi), Nat.zero_add] at hstanding
  have hmove := move_step rule hstanding t b c
  refine ⟨p, (step sides rule i p t b c).1, hreplay, ?_, ?_, ?_⟩
  · rw [hfires]
    exact scheduled_step
  · intro hlt
    rw [← hlength] at hlt
    exact hget.trans (congrArg some (if_pos hlt))
  · intro hlast
    have hnot : ¬i + 1 < bars.length := fun h => Nat.ne_of_lt h (hlast.trans hlength.symm)
    refine ⟨_, hmove.settled, hget.trans (congrArg some ((if_neg hnot).trans ?_))⟩
    exact hmove.settle_eq hstanding

/-- A rule that counts its questions and leaves when it is asked for the second time. -/
def leaveOnSecond : ExitRule Nat := fun asked _ => (asked == 1, asked + 1)

/-- A long position is opened on the first bar and left by the rule on the third. -/
theorem withExits_scheduled_leaveOnSecond :
    let buy := [true, true, false, true]
    let sell := [false, false, false, false]
    let rows := (withExits .long leaveOnSecond 0 buy sell).1
    buy[2]? = some false ∧ sell[2]? = some false ∧
      fires .long leaveOnSecond 0 (buy.zip sell) rows 2 = true ∧
      ∃ p row, Position.flat.replay? (events (rows.take 2)) = some p ∧
        Scheduled .long false false true p.side? row ∧ rows[2]? = some row := by
  intro buy sell rows
  have hfires : fires .long leaveOnSecond 0 (buy.zip sell) rows 2 = true := by decide
  obtain ⟨p, row, hreplay, hrow, hget, -⟩ :=
    @withExits_scheduled Nat .long leaveOnSecond 0 buy sell 2 false false rfl rfl
  exact ⟨rfl, rfl, hfires, p, row, hreplay, hfires ▸ hrow, hget (by decide)⟩

end Reconciliation

end TradeSignals
