import TradeSignals.Proofs.Trades.History

/-!
# Reconciling once is enough

The flags of a reconciliation are signals again: those of the raw ones that are kept, and those
that close a position at the end. Reconciled in their turn they give the same rows
(`TradeSignals.Reconciliation.of_of`).

On a bar that is not the last, the flags of its row call for the row, and for no other one
(`TradeSignals.Reconciliation.step_flags`), so the second walk stands on every bar where the first
one stood. On the last bar this fails: where both sides may be taken, the flag that closes a long
position alone would turn it. But there the signals do not matter at all, since whatever move they
call for is settled into the one that closes what is held.
-/

namespace TradeSignals

/-- The flags of a row, as signals. -/
def TradeRow.flags (row : TradeRow) : Bool × Bool := (row.buy, row.sell)

namespace Reconciliation

variable {sides : PositionType} {held next : Option Side} {buy sell : Bool} {row : TradeRow}

/-! ### One bar -/

/-- **The flags of a transition** call for the same transition. -/
theorem transition?_flags (h : transition? sides held buy sell = some (row, next)) :
    transition? sides held row.buy row.sell = some (row, next) := by
  -- A flag that is ignored next to the other one is not kept, and the line does not ask for it.
  rcases held with _ | side
  · cases sides <;> cases buy <;> cases sell <;> cases h <;> rfl
  · cases sides <;> cases side <;> cases buy <;> cases sell <;> cases h <;> rfl

/-- No signal is no reason to do anything. -/
theorem transition?_idle (sides : PositionType) (held : Option Side) :
    transition? sides held false false = none := by
  rcases held with _ | side
  · cases sides <;> rfl
  · cases sides <;> cases side <;> rfl

/-- Where no signal changes the position and no rule says to leave it, nothing happens. -/
theorem step_stay {bar : ℕ} {p : Position} (h : transition? sides p.side? buy sell = none) :
    step sides stay bar p () buy sell = (.idle, p, ()) := by
  cases p with
  | flat => exact step_flat h
  | held side since => exact (step_held h).trans (if_neg Bool.false_ne_true)

/-- **A step on the flags that it kept** is the same step. -/
theorem step_flags (sides : PositionType) (bar : ℕ) (p : Position) (buy sell : Bool) :
    step sides stay bar p () (step sides stay bar p () buy sell).1.buy
      (step sides stay bar p () buy sell).1.sell = step sides stay bar p () buy sell := by
  rcases htable : transition? sides p.side? buy sell with _ | ⟨row, next⟩
  · rw [step_stay htable]
    exact step_stay (transition?_idle sides p.side?)
  · rw [step_of_some htable]
    exact step_of_some (transition?_flags htable)

/-! ### Many bars -/

/-- An advance over the flags that it kept is the same advance. -/
theorem advance_flags (sides : PositionType) (bar : ℕ) (p : Position) (bars : List (Bool × Bool)) :
    advance sides stay bar p () ((advance sides stay bar p () bars).1.map TradeRow.flags) =
      advance sides stay bar p () bars := by
  induction bars generalizing bar p with
  | nil => rfl
  | cons x rest ih =>
    obtain ⟨buy, sell⟩ := x
    rw [advance_cons, List.map_cons, TradeRow.flags, advance_cons, step_flags, ih]

/-- The last bar closes what was held before it, whatever the signals there are. -/
theorem walk_last {bar : ℕ} {p : Position} (hp : p.Standing sides bar) (buy sell : Bool) :
    walk sides stay bar p () [(buy, sell)] = ([closing p], ()) := by
  rw [walk_singleton, (move_step stay hp () buy sell).settle_eq hp]

/-- **A walk over the flags that it kept** is the same walk. -/
theorem walk_flags (sides : PositionType) (bars : List (Bool × Bool)) :
    walk sides stay 0 .flat () ((walk sides stay 0 .flat () bars).1.map TradeRow.flags) =
      walk sides stay 0 .flat () bars := by
  rcases List.eq_nil_or_concat bars with rfl | ⟨first, ⟨buy, sell⟩, rfl⟩
  · rfl
  · obtain ⟨-, hstanding⟩ := moves_advance (p := .flat) sides 0 stay first () trivial
    rw [List.concat_eq_append, walk_append first (List.cons_ne_nil _ _), walk_last hstanding,
      List.map_append, List.map_singleton, walk_append _ (List.cons_ne_nil _ _), advance_flags,
      List.length_map, length_advance, TradeRow.flags, walk_last hstanding]

end Reconciliation

open Reconciliation in
/-- **Reconciling is idempotent:** the flags of a reconciliation, reconciled again, give the same
flags and the same changes of the position, on the last bar as on all others. -/
theorem Reconciliation.of_of (sides : PositionType) (buy sell : List Bool) :
    of sides ((of sides buy sell).map (·.buy)) ((of sides buy sell).map (·.sell)) =
      of sides buy sell := by
  have hflags : ((of sides buy sell).map (·.buy)).zip ((of sides buy sell).map (·.sell)) =
      (of sides buy sell).map TradeRow.flags :=
    List.zip_map'
  rw [of, withExits, hflags, of, withExits, walk_flags]

end TradeSignals
