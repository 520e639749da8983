import TradeSignals.Market.Quantity
import TradeSignals.Strategy.Basic
import TradeSignals.Trades.Reconciliation

/-!
# Stop loss and take profit

The exit rule of a strategy. It watches the close of each bar on which a position is
held: a stop loss leaves when the close has fallen too far below the entry price, or
below the best close since the entry if it trails; a take profit leaves when the close
has risen far enough above the entry price. For a short position all is mirrored. Where
both would leave, the stop loss is the reason that is given.

When the signal that opened the position comes again, the position counts as entered
anew at that bar, and nothing is left there.
-/

namespace TradeSignals

/-- Why a position was left. -/
inductive ExitCause (α : Type) where
  /-- A loss was cut. -/
  | stop (stop : StopLoss α)
  /-- A profit was taken. -/
  | profit (profit : TakeProfit α)
deriving DecidableEq

/-- The label of an exit. -/
def ExitCause.label : ExitCause Float → String
  | .stop ⟨.normal, percent⟩ => "StopLossNormal(" ++ NumberLayout.canonical.text percent ++ ")"
  | .stop ⟨.trailing, percent⟩ =>
    "StopLossTrailing(" ++ NumberLayout.canonical.text percent ++ ")"
  | .profit ⟨percent⟩ => "TakeProfit(" ++ NumberLayout.canonical.text percent ++ ")"

/-- When to leave a position, and the closes to go by. -/
structure ExitOverlay (α : Type) where
  /-- The close of every bar. -/
  closes : List α
  /-- When to cut a loss. -/
  stopLoss : Option (StopLoss α)
  /-- When to take a profit. -/
  takeProfit : Option (TakeProfit α)

namespace ExitOverlay

open Quantity

/-- What is known of the position that is watched. -/
structure Tracked (α : Type) where
  /-- The bar on which it was opened. -/
  since : Nat
  /-- The price at which it counts as entered. -/
  entry : α
  /-- The best close from there on. -/
  extreme : α

/-- What the rule remembers. -/
structure Memory (α : Type) where
  /-- The position that is watched. -/
  tracked : Option (Tracked α)
  /-- The bars on which a position was left, and why. -/
  fired : List (Nat × ExitCause α)

/-- Nothing is watched and nothing was left. -/
def Memory.start {α : Type} : Memory α := ⟨none, []⟩

/-- Why the position was left on a bar. -/
def Memory.causeAt? {α : Type} (m : Memory α) (bar : Nat) : Option (ExitCause α) :=
  m.fired.lookup bar

variable {α : Type} [Quantity α]

/-- The close of a bar; missing beyond the last. -/
def close (x : ExitOverlay α) (bar : Nat) : α := x.closes.getD bar missing

/-- A price so many percent above another. -/
def raised (price percent : α) : α := price * (ofInt 1 + percent / ofInt 100)

/-- A price so many percent below another. -/
def lowered (price percent : α) : α := price * (ofInt 1 - percent / ofInt 100)

/-- Is a close at or beyond the price at which a loss is cut? -/
def stops (stop : StopLoss α) (side : Side) (t : Tracked α) (close : α) : Bool :=
  let reference := match stop.kind with
    | .normal => t.entry
    | .trailing => t.extreme
  match side with
  | .long => le close (lowered reference stop.percent)
  | .short => le (raised reference stop.percent) close

/-- Is a close at or beyond the price at which a profit is taken? -/
def profits (profit : TakeProfit α) (side : Side) (t : Tracked α) (close : α) : Bool :=
  match side with
  | .long => le (raised t.entry profit.percent) close
  | .short => le close (lowered t.entry profit.percent)

/-- Why to leave at a close, if at all. -/
def cause? (x : ExitOverlay α) (side : Side) (t : Tracked α) (close : α) :
    Option (ExitCause α) :=
  match x.stopLoss.filter (stops · side t close) with
  | some stop => some (.stop stop)
  | none => (x.takeProfit.filter (profits · side t close)).map .profit

/-- The better of two closes for a side. -/
def better : Side → α → α → α
  | .long => Quantity.max
  | .short => Quantity.min

/-- What is known of a position: what is remembered of it, or else that it was entered
on the bar on which it was opened. -/
def tracking (x : ExitOverlay α) (m : Memory α) (since : Nat) : Tracked α :=
  match m.tracked.filter (·.since == since) with
  | some t => t
  | none => ⟨since, x.close since, x.close since⟩

/-- **The exit rule.** -/
def rule (x : ExitOverlay α) : ExitRule (Memory α) := fun m held =>
  if x.stopLoss.isNone ∧ x.takeProfit.isNone then (false, m)
  else
    let close := x.close held.bar
    if held.freshEntry then (false, { m with tracked := some ⟨held.since, close, close⟩ })
    else
      let t := x.tracking m held.since
      let t := { t with extreme := better held.side t.extreme close }
      match x.cause? held.side t close with
      | some cause => (true, ⟨none, m.fired ++ [(held.bar, cause)]⟩)
      | none => (false, { m with tracked := some t })

end ExitOverlay

end TradeSignals
