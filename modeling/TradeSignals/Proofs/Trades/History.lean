import TradeSignals.Proofs.Trades.Walk

/-!
# Every reconciliation is a legal history of trades

Read in order, the trades of a reconciliation are a run of a machine that knows only the
position: from none a position may be opened on either side, a position may be closed
only on its own side and only on a later bar, and nothing else may happen
(`TradeSignals.Position.after?`). The run begins and ends with nothing held
(`TradeSignals.Reconciliation.withExits_legal`).

What carries the proof is one relation between the position before a bar, the row of the
bar and the position after it (`TradeSignals.Reconciliation.Move`). There are four such
moves, whatever the signals and the rule say. Every step is a move, and the last bar is
one that ends with nothing held (`TradeSignals.Reconciliation.Move.settle_eq`), however many
of its labels are rewritten on the way.
-/

namespace TradeSignals

/-- The other side of the market. -/
def Side.opposite : Side → Side
  | .long => .short
  | .short => .long

/-- One of two things, that for buying or that for selling: what opens a position on a side. -/
def Side.pick {α : Type} (side : Side) (buying selling : α) : α :=
  match side with
  | .long => buying
  | .short => selling

theorem Side.pick_map {α β : Type} (f : α → β) (side : Side) (a b : α) :
    side.pick (f a) (f b) = f (side.pick a b) := by
  cases side <;> rfl

/-- May a position on a side be taken? -/
def PositionType.takes : PositionType → Side → Bool
  | .long, .long | .short, .short | .longShort, _ => true
  | _, _ => false

/-! ### The machine -/

/-- **The position after a change**, if the change is legal: a position is opened when
nothing is held, and closed on its own side, on a bar after the one that opened it. -/
def Position.after? : Position → TradeKind × Nat → Option Position
  | .flat, (.longEntry, bar) => some (.held .long bar)
  | .flat, (.shortEntry, bar) => some (.held .short bar)
  | .held .long since, (.longExit, bar) => if since < bar then some .flat else none
  | .held .short since, (.shortExit, bar) => if since < bar then some .flat else none
  | _, _ => none

/-- The position after several changes, if all of them are legal. -/
def Position.replay? (p : Position) (changes : List (TradeKind × Nat)) : Option Position :=
  changes.foldlM Position.after? p

theorem Position.replay?_append (p : Position) (first second : List (TradeKind × Nat)) :
    p.replay? (first ++ second) = (p.replay? first).bind (·.replay? second) :=
  List.foldlM_append

/-- A position that may be held when a bar begins: it is on a side that may be taken, and
was opened before the bar. -/
def Position.Standing (sides : PositionType) (bar : ℕ) : Position → Prop
  | .flat => True
  | .held side since => sides.takes side = true ∧ since < bar

namespace Reconciliation

/-- **A legal history** of so many bars: its trades are a run of the machine that begins
and ends with nothing held, only the sides that may be taken are, and the flags of a bar
say what its labels say. -/
structure Legal (sides : PositionType) (count : ℕ) (rows : List TradeRow) : Prop where
  /-- There is a row for each bar. -/
  length : rows.length = count
  /-- The trades are a run of the machine. -/
  run : Position.flat.replay? (events rows) = some .flat
  /-- Nothing is done on the short side if only the long one may be taken. -/
  longOnly : sides = .long → ∀ row ∈ rows, row.short = none
  /-- Nothing is done on the long side if only the short one may be taken. -/
  shortOnly : sides = .short → ∀ row ∈ rows, row.long = none
  /-- Something is bought to open a long position or to close a short one. -/
  buy : ∀ row ∈ rows,
    row.buy = true ↔ row.long = some .longEntry ∨ row.short = some .shortExit
  /-- Something is sold to open a short position or to close a long one. -/
  sell : ∀ row ∈ rows,
    row.sell = true ↔ row.short = some .shortEntry ∨ row.long = some .longExit
  /-- Nothing is bought and sold on the same bar. -/
  exclusive : ∀ row ∈ rows, ¬(row.buy = true ∧ row.sell = true)

/-! ### Moves -/

variable {σ : Type} {sides : PositionType} {bar : ℕ}

/-- **A move:** the position before a bar, the row of the bar, and the position after
it. -/
inductive Move (sides : PositionType) (bar : ℕ) : Position → TradeRow → Position → Prop
  /-- Nothing happens. -/
  | idle {p : Position} : Move sides bar p .idle p
  /-- A position is opened. -/
  | entry {side : Side} (htakes : sides.takes side = true) :
      Move sides bar .flat (.entry side) (.held side bar)
  /-- A position is closed. -/
  | exit {side : Side} {since : ℕ} (htakes : sides.takes side = true) (hsince : since < bar) :
      Move sides bar (.held side since) (.exit side) .flat
  /-- A position is closed and one opened on the other side. -/
  | reversal {side : Side} {since : ℕ} (hsides : sides = .longShort) (hsince : since < bar) :
      Move sides bar (.held side since) (.reversal side) (.held side.opposite bar)

/-! ### What a bar does -/

/-- Every row of the table is a move. -/
theorem move_of_transition? {p : Position} {buy sell : Bool} {row : TradeRow}
    {next : Option Side} (hp : p.Standing sides bar)
    (h : transition? sides p.side? buy sell = some (row, next)) :
    Move sides bar p row (.on bar next) := by
  -- Split on the table's own arguments; each of its lines is one kind of move.
  cases p with
  | flat =>
    cases sides <;> cases buy <;> cases sell <;> cases h <;> exact .entry rfl
  | held side since =>
    obtain ⟨htakes, hsince⟩ := hp
    cases sides <;> cases side <;> cases buy <;> cases sell <;> cases h <;>
      first | exact .exit htakes hsince | exact .reversal rfl hsince

/-- **Every step is a move.** -/
theorem move_step (rule : ExitRule σ) {p : Position} (hp : p.Standing sides bar) (s : σ)
    (buy sell : Bool) :
    Move sides bar p (step sides rule bar p s buy sell).1
      (step sides rule bar p s buy sell).2.1 := by
  rcases htable : transition? sides p.side? buy sell with _ | ⟨row, next⟩
  · -- No line of the table applies, so the rule decides, if anything is held.
    cases p with
    | flat =>
      rw [step_flat htable]
      exact .idle
    | held side since =>
      rw [step_held htable]
      split
      · exact .exit hp.1 hp.2
      · exact .idle
  · rw [step_of_some htable]
    exact move_of_transition? hp htable

/-- What is held after a move may be held when the next bar begins. -/
theorem Move.standing {p q : Position} {row : TradeRow} (h : Move sides bar p row q)
    (hp : p.Standing sides bar) : q.Standing sides (bar + 1) := by
  -- What is opened on this bar was opened before the next one.
  cases h with
  | idle =>
    cases p with
    | flat => trivial
    | held side since => exact ⟨hp.1, Nat.lt_succ_of_lt hp.2⟩
  | entry htakes => exact ⟨htakes, Nat.lt_succ_self bar⟩
  | exit => trivial
  | reversal hsides =>
    refine ⟨?_, Nat.lt_succ_self bar⟩
    rw [hsides]
    rfl

/-- The row of the last bar: what is held when it begins is closed. -/
def closing : Position → TradeRow
  | .flat => .idle
  | .held side _ => .exit side

/-- **The last bar closes what was held before it,** whatever its own move was. -/
theorem Move.settle_eq {p q : Position} {row : TradeRow} (h : Move sides bar p row q)
    (hp : p.Standing sides bar) : settle bar row q = closing p := by
  cases h with
  | idle =>
    cases p with
    | flat => rfl
    | held side since =>
      have hne : since ≠ bar := Nat.ne_of_lt hp.2
      cases side <;> exact if_neg hne
  | @entry side => cases side <;> exact if_pos rfl
  | exit => rfl
  | @reversal side since => cases side <;> exact if_pos rfl

/-- Closing what is held is a move. -/
theorem move_closing {p : Position} (hp : p.Standing sides bar) :
    Move sides bar p (closing p) .flat := by
  cases p with
  | flat => exact .idle
  | held side since => exact .exit hp.1 hp.2

/-! ### What a move says -/

/-- The trades of a move are a run of the machine. -/
theorem Move.replay? {p q : Position} {row : TradeRow} (h : Move sides bar p row q) :
    p.replay? (rowEvents bar row) = some q := by
  cases h with
  | idle => rfl
  | @entry side => cases side <;> rfl
  | @exit side since _ hsince =>
    cases side <;>
      simp [Position.replay?, Position.after?, rowEvents, TradeRow.exit, TradeKind.isEntry, hsince]
  | @reversal side since _ hsince =>
    -- The exit is read before the entry on the other side, which is why it is legal.
    cases side <;>
      simp [Position.replay?, Position.after?, rowEvents, TradeRow.reversal, TradeKind.isEntry,
        Side.opposite, hsince]

/-- The flags of a move say what its labels say. -/
theorem Move.flags {p q : Position} {row : TradeRow} (h : Move sides bar p row q) :
    (row.buy = true ↔ row.long = some .longEntry ∨ row.short = some .shortExit) ∧
      (row.sell = true ↔ row.short = some .shortEntry ∨ row.long = some .longExit) ∧
      ¬(row.buy = true ∧ row.sell = true) := by
  cases h with
  | idle => decide
  | @entry side => cases side <;> decide
  | @exit side => cases side <;> decide
  | @reversal side => cases side <;> decide

/-- With the long side only, a move leaves the short side alone. -/
theorem Move.short_eq_none {p q : Position} {row : TradeRow} (h : Move .long bar p row q) :
    row.short = none := by
  cases h with
  | idle => rfl
  | @entry side htakes => cases side <;> first | rfl | cases htakes
  | @exit side _ htakes => cases side <;> first | rfl | cases htakes
  | reversal hsides => cases hsides

/-- With the short side only, a move leaves the long side alone. -/
theorem Move.long_eq_none {p q : Position} {row : TradeRow} (h : Move .short bar p row q) :
    row.long = none := by
  cases h with
  | idle => rfl
  | @entry side htakes => cases side <;> first | rfl | cases htakes
  | @exit side _ htakes => cases side <;> first | rfl | cases htakes
  | reversal hsides => cases hsides

/-! ### Many bars -/

/-- **Moves one after the other,** from a bar and a position on. -/
inductive Moves (sides : PositionType) : ℕ → Position → List TradeRow → Position → Prop
  /-- There are no more bars. -/
  | nil {bar : ℕ} {p : Position} : Moves sides bar p [] p
  /-- A bar, and those after it. -/
  | cons {bar : ℕ} {p q r : Position} {row : TradeRow} {rows : List TradeRow}
      (hmove : Move sides bar p row q) (hrest : Moves sides (bar + 1) q rows r) :
      Moves sides bar p (row :: rows) r

/-- One more move. -/
theorem Moves.concat {p q r : Position} {rows : List TradeRow} {row : TradeRow}
    (h : Moves sides bar p rows q) (hrow : Move sides (bar + rows.length) q row r) :
    Moves sides bar p (rows ++ [row]) r := by
  -- Each move in front takes one bar off the number of those still to come.
  induction h with
  | nil => exact .cons hrow .nil
  | cons hmove _ ih =>
    refine .cons hmove (ih ?_)
    rwa [Nat.add_assoc, Nat.add_comm 1]

/-- The trades of moves are a run of the machine. -/
theorem Moves.replay? {p q : Position} {rows : List TradeRow} (h : Moves sides bar p rows q) :
    p.replay? (eventsFrom bar rows) = some q := by
  induction h with
  | nil => rfl
  | cons hmove _ ih =>
    rw [eventsFrom, Position.replay?_append, hmove.replay?]
    exact ih

/-- What every move says of its row holds of every row. -/
theorem Moves.forall_rows {P : TradeRow → Prop} {p q : Position} {rows : List TradeRow}
    (h : Moves sides bar p rows q)
    (hP : ∀ bar p row q, Move sides bar p row q → P row) : ∀ row ∈ rows, P row := by
  induction h with
  | nil =>
    intro row hrow
    exact absurd hrow List.not_mem_nil
  | cons hmove _ ih => exact List.forall_mem_cons.mpr ⟨hP _ _ _ _ hmove, ih⟩

/-- An advance makes moves, and what is held after it may be held on the next bar. -/
theorem moves_advance (sides : PositionType) (bar : ℕ) (rule : ExitRule σ)
    (bars : List (Bool × Bool)) {p : Position} (s : σ)
    (hp : p.Standing sides bar) :
    Moves sides bar p (advance sides rule bar p s bars).1 (advance sides rule bar p s bars).2.1 ∧
      (advance sides rule bar p s bars).2.1.Standing sides (bar + bars.length) := by
  -- What is held stays a standing position from bar to bar, and so each step is a move.
  induction bars generalizing bar p s with
  | nil => exact ⟨.nil, hp⟩
  | cons x rest ih =>
    obtain ⟨buy, sell⟩ := x
    have hmove := move_step rule hp s buy sell
    obtain ⟨hmoves, hstanding⟩ := ih _ (step sides rule bar p s buy sell).2.2 (hmove.standing hp)
    refine ⟨.cons hmove hmoves, ?_⟩
    rw [List.length_cons, Nat.add_comm rest.length 1, ← Nat.add_assoc]
    exact hstanding

/-- **A walk makes moves** that end with nothing held. -/
theorem moves_walk (sides : PositionType) (rule : ExitRule σ) (bars : List (Bool × Bool)) (s : σ) :
    Moves sides 0 .flat (walk sides rule 0 .flat s bars).1 .flat := by
  rcases List.eq_nil_or_concat bars with rfl | ⟨first, ⟨buy, sell⟩, rfl⟩
  · exact .nil
  · obtain ⟨hmoves, hstanding⟩ := moves_advance (p := .flat) sides 0 rule first s trivial
    rw [List.concat_eq_append, walk_append first (List.cons_ne_nil _ _), walk_singleton]
    -- Whatever the last bar does, it is rewritten into a move that closes what is held.
    refine hmoves.concat ?_
    rw [length_advance, (move_step rule hstanding _ buy sell).settle_eq hstanding]
    exact move_closing hstanding

/-- **Every reconciliation is a legal history,** whatever the signals are and whatever
the rule answers. -/
theorem withExits_legal (sides : PositionType) (rule : ExitRule σ) (s : σ)
    (buy sell : List Bool) :
    Legal sides (min buy.length sell.length) (withExits sides rule s buy sell).1 := by
  have hmoves := moves_walk sides rule (buy.zip sell) s
  refine ⟨?_, hmoves.replay?, ?_, ?_, ?_, ?_, ?_⟩
  · rw [withExits, length_walk, List.length_zip]
  · rintro rfl
    exact hmoves.forall_rows fun _ _ _ _ h => h.short_eq_none
  · rintro rfl
    exact hmoves.forall_rows fun _ _ _ _ h => h.long_eq_none
  · exact hmoves.forall_rows fun _ _ _ _ h => h.flags.1
  · exact hmoves.forall_rows fun _ _ _ _ h => h.flags.2.1
  · exact hmoves.forall_rows fun _ _ _ _ h => h.flags.2.2

end Reconciliation

end TradeSignals
