import TradeSignals.Vocabulary.Choice

/-!
# Reconciling signals into trades

Raw signals say of each bar whether to buy and whether to sell, and say it again and
again while a condition lasts. A position can be opened only once and closed only while
it is open. Reconciling walks over the bars with the position in hand, keeps the signals
that change it, clears all others, and labels each change.

A strategy may take one side of the market or both:

* long only: a buy without a sell opens a position, a sell closes it;
* short only: a sell without a buy opens a position, a buy closes it;
* both: from no position either signal opens one if the other is not there; while one is
  held, the opposite signal alone closes it and opens one on the other side.

On a bar on which a position is held and no signal changes it, an exit rule is asked
whether to leave. What is still held on the last bar is closed there, and a position is
never opened on the last bar.
-/

namespace TradeSignals

/-- A side of the market. -/
inductive Side where
  /-- Bought first. -/
  | long
  /-- Sold first. -/
  | short
deriving DecidableEq

/-- A change of position. -/
inductive TradeKind where
  /-- A long position is opened. -/
  | longEntry
  /-- A long position is closed. -/
  | longExit
  /-- A short position is opened. -/
  | shortEntry
  /-- A short position is closed. -/
  | shortExit
deriving DecidableEq

namespace TradeKind

/-- The name of a change. -/
def name : TradeKind → String
  | .longEntry => "LongEntry"
  | .longExit => "LongExit"
  | .shortEntry => "ShortEntry"
  | .shortExit => "ShortExit"

/-- Is a position opened? -/
def isEntry : TradeKind → Bool
  | .longEntry | .shortEntry => true
  | .longExit | .shortExit => false

end TradeKind

/-- What becomes of the signals of a bar: those that are kept, and the changes of the
position on each side. -/
structure TradeRow where
  /-- Something is bought. -/
  buy : Bool
  /-- Something is sold. -/
  sell : Bool
  /-- The change on the long side. -/
  long : Option TradeKind
  /-- The change on the short side. -/
  short : Option TradeKind
deriving DecidableEq

namespace TradeRow

/-- A bar on which nothing happens. -/
def idle : TradeRow := ⟨false, false, none, none⟩

/-- A position is opened. -/
def entry : Side → TradeRow
  | .long => ⟨true, false, some .longEntry, none⟩
  | .short => ⟨false, true, none, some .shortEntry⟩

/-- A position is closed. -/
def exit : Side → TradeRow
  | .long => ⟨false, true, some .longExit, none⟩
  | .short => ⟨true, false, none, some .shortExit⟩

/-- A position is closed and one on the other side opened; the side is that of the
position that is closed. -/
def reversal : Side → TradeRow
  | .long => ⟨false, true, some .longExit, some .shortEntry⟩
  | .short => ⟨true, false, some .longEntry, some .shortExit⟩

end TradeRow

/-- A position: none, or one on a side since a bar. -/
inductive Position where
  /-- Nothing is held. -/
  | flat
  /-- A position on a side that was opened on a bar. -/
  | held (side : Side) (since : Nat)
deriving DecidableEq

/-- The side of a position. -/
def Position.side? : Position → Option Side
  | .flat => none
  | .held side _ => some side

/-- A position on a side from a bar on, or none. -/
def Position.on (bar : Nat) : Option Side → Position
  | none => .flat
  | some side => .held side bar

/-- A bar on which a position is held and no signal changes it. -/
structure HeldBar where
  /-- The bar. -/
  bar : Nat
  /-- The side of the position. -/
  side : Side
  /-- The bar on which it was opened. -/
  since : Nat
  /-- Whether the signal that opens such a position is there again. -/
  freshEntry : Bool
deriving DecidableEq

/-- A rule that says whether to leave a position, and remembers what it needs. -/
abbrev ExitRule (σ : Type) := σ → HeldBar → Bool × σ

/-- A rule that also keeps what it was asked and what it answered, in order. -/
def ExitRule.recording {σ : Type} (rule : ExitRule σ) : ExitRule (σ × List (HeldBar × Bool)) :=
  fun (s, asked) held =>
    let (leaves, s) := rule s held
    (leaves, s, asked ++ [(held, leaves)])

namespace Reconciliation

variable {σ : Type}

/-- What signals do to a position: the row of the bar and the side that is held
afterwards. Signals that change nothing give nothing. -/
def transition? (sides : PositionType) (held : Option Side) (buy sell : Bool) :
    Option (TradeRow × Option Side) :=
  match sides, held, buy, sell with
  | .long, none, true, false => some (.entry .long, some .long)
  | .long, some .long, _, true => some (.exit .long, none)
  | .short, none, false, true => some (.entry .short, some .short)
  | .short, some .short, true, _ => some (.exit .short, none)
  | .longShort, none, true, false => some (.entry .long, some .long)
  | .longShort, none, false, true => some (.entry .short, some .short)
  | .longShort, some .long, false, true => some (.reversal .long, some .short)
  | .longShort, some .short, true, false => some (.reversal .short, some .long)
  | _, _, _, _ => none

/-- The signal that opens a position on a side. -/
def opens (side : Side) (buy sell : Bool) : Bool :=
  match side with
  | .long => buy
  | .short => sell

/-- One bar: its row, the position after it, and what the rule remembers. -/
def step (sides : PositionType) (rule : ExitRule σ) (bar : Nat) (position : Position) (s : σ)
    (buy sell : Bool) : TradeRow × Position × σ :=
  match transition? sides position.side? buy sell with
  | some (row, next) => (row, .on bar next, s)
  | none =>
    match position with
    | .flat => (.idle, .flat, s)
    | .held side since =>
      let (leaves, s) := rule s ⟨bar, side, since, opens side buy sell⟩
      if leaves then (.exit side, .flat, s) else (.idle, .held side since, s)

/-- The row of the last bar, once it is known what is held after it. A position that was
opened on this bar is taken back, and with it the signal, unless the signal also closed
the position before it; an older one is closed. -/
def settle (bar : Nat) (row : TradeRow) (position : Position) : TradeRow :=
  match position with
  | .flat => row
  | .held .long since =>
    if since = bar then
      { row with long := none, buy := if row.short = some .shortExit then row.buy else false }
    else { row with sell := true, long := some .longExit }
  | .held .short since =>
    if since = bar then
      { row with short := none, sell := if row.long = some .longExit then row.sell else false }
    else { row with buy := true, short := some .shortExit }

/-- The rows of the bars from one on. -/
def walk (sides : PositionType) (rule : ExitRule σ) (bar : Nat) (position : Position) (s : σ) :
    List (Bool × Bool) → List TradeRow × σ
  | [] => ([], s)
  | (buy, sell) :: rest =>
    let (row, position, s) := step sides rule bar position s buy sell
    match rest with
    | [] => ([settle bar row position], s)
    | _ :: _ =>
      let (rows, s) := walk sides rule (bar + 1) position s rest
      (row :: rows, s)

/-- **Reconciles** signals with an exit rule, which begins with `s`. There are as many
rows as there are signals of both kinds. -/
def withExits (sides : PositionType) (rule : ExitRule σ) (s : σ) (buy sell : List Bool) :
    List TradeRow × σ :=
  walk sides rule 0 .flat s (buy.zip sell)

/-- The rule that never leaves. -/
def stay : ExitRule Unit := fun _ _ => (false, ())

/-- Reconciles signals alone. -/
def of (sides : PositionType) (buy sell : List Bool) : List TradeRow :=
  (withExits sides stay () buy sell).1

/-- The changes of one bar, exits before entries. -/
def rowEvents (bar : Nat) (row : TradeRow) : List (TradeKind × Nat) :=
  let kinds := row.long.toList ++ row.short.toList
  (kinds.filter (!·.isEntry) ++ kinds.filter (·.isEntry)).map fun kind => (kind, bar)

/-- The changes of the bars from one on. -/
def eventsFrom (bar : Nat) : List TradeRow → List (TradeKind × Nat)
  | [] => []
  | row :: rest => rowEvents bar row ++ eventsFrom (bar + 1) rest

/-- **The trades** of a reconciliation: each change with its bar, in order. -/
def events (rows : List TradeRow) : List (TradeKind × Nat) := eventsFrom 0 rows

end Reconciliation

end TradeSignals
