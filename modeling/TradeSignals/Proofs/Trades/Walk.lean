import Mathlib.Data.Nat.Notation
import Mathlib.Tactic.Common
import TradeSignals.Trades.Reconciliation

/-!
# The walk over the bars, cut in two

`TradeSignals.Reconciliation.walk` treats the last bar in its own way: what is held
after it is given up. All bars before it are treated alike, and what is proved about a
reconciliation is proved about them first.
`TradeSignals.Reconciliation.advance` is the walk over bars of which none is the last.
A walk over more bars is an advance over the first ones and a walk over the others
(`TradeSignals.Reconciliation.walk_append`), so nothing that comes later is looked at
before it is reached.
-/

namespace TradeSignals

namespace Reconciliation

variable {σ : Type} {sides : PositionType} {rule : ExitRule σ}

/-! ### One bar -/

/-- A bar whose signals change the position. -/
theorem step_of_some {bar : ℕ} {p : Position} {s : σ} {buy sell : Bool} {row : TradeRow}
    {next : Option Side} (h : transition? sides p.side? buy sell = some (row, next)) :
    step sides rule bar p s buy sell = (row, .on bar next, s) := by
  rw [step.eq_def, h]

/-- A bar on which nothing is held and no signal changes that. -/
theorem step_flat {bar : ℕ} {s : σ} {buy sell : Bool}
    (h : transition? sides none buy sell = none) :
    step sides rule bar .flat s buy sell = (.idle, .flat, s) := by
  rw [step.eq_def, Position.side?, h]

/-- A bar on which no signal changes what is held: the rule is asked. -/
theorem step_held {bar since : ℕ} {side : Side} {s : σ} {buy sell : Bool}
    (h : transition? sides (some side) buy sell = none) :
    step sides rule bar (.held side since) s buy sell =
      if (rule s ⟨bar, side, since, opens side buy sell⟩).1 then
        (.exit side, .flat, (rule s ⟨bar, side, since, opens side buy sell⟩).2)
      else (.idle, .held side since, (rule s ⟨bar, side, since, opens side buy sell⟩).2) := by
  rw [step.eq_def, Position.side?, h]

/-! ### Many bars -/

/-- The rows of bars of which none is the last, with the position after them and what
the rule remembers then. -/
def advance (sides : PositionType) (rule : ExitRule σ) (bar : Nat) (position : Position)
    (s : σ) : List (Bool × Bool) → List TradeRow × Position × σ
  | [] => ([], position, s)
  | (buy, sell) :: rest =>
    let (row, position, s) := step sides rule bar position s buy sell
    let (rows, position, s) := advance sides rule (bar + 1) position s rest
    (row :: rows, position, s)

/-- An advance over a bar and those after it. -/
theorem advance_cons (rest : List (Bool × Bool)) (bar : ℕ) (p : Position) (s : σ)
    (buy sell : Bool) :
    advance sides rule bar p s ((buy, sell) :: rest) =
      ((step sides rule bar p s buy sell).1 ::
          (advance sides rule (bar + 1) (step sides rule bar p s buy sell).2.1
            (step sides rule bar p s buy sell).2.2 rest).1,
        (advance sides rule (bar + 1) (step sides rule bar p s buy sell).2.1
          (step sides rule bar p s buy sell).2.2 rest).2) :=
  rfl

theorem length_advance (bars : List (Bool × Bool)) (bar : ℕ) (p : Position) (s : σ) :
    (advance sides rule bar p s bars).1.length = bars.length := by
  induction bars generalizing bar p s with
  | nil => rfl
  | cons x rest ih => exact congrArg (· + 1) (ih _ _ _)

/-- The walk over one bar. -/
theorem walk_singleton (bar : ℕ) (p : Position) (s : σ) (buy sell : Bool) :
    walk sides rule bar p s [(buy, sell)] =
      ([settle bar (step sides rule bar p s buy sell).1 (step sides rule bar p s buy sell).2.1],
        (step sides rule bar p s buy sell).2.2) :=
  rfl

/-- The walk over a bar that is not the last. -/
theorem walk_cons {rest : List (Bool × Bool)} (h : rest ≠ []) (bar : ℕ) (p : Position) (s : σ)
    (buy sell : Bool) :
    walk sides rule bar p s ((buy, sell) :: rest) =
      ((step sides rule bar p s buy sell).1 ::
          (walk sides rule (bar + 1) (step sides rule bar p s buy sell).2.1
            (step sides rule bar p s buy sell).2.2 rest).1,
        (walk sides rule (bar + 1) (step sides rule bar p s buy sell).2.1
          (step sides rule bar p s buy sell).2.2 rest).2) := by
  obtain ⟨x, rest, rfl⟩ := List.exists_cons_of_ne_nil h
  rfl

/-- **A walk is an advance and a walk** over what is left. -/
theorem walk_append (bars : List (Bool × Bool)) {more : List (Bool × Bool)} (h : more ≠ [])
    (bar : ℕ) (p : Position) (s : σ) :
    walk sides rule bar p s (bars ++ more) =
      ((advance sides rule bar p s bars).1 ++
          (walk sides rule (bar + bars.length) (advance sides rule bar p s bars).2.1
            (advance sides rule bar p s bars).2.2 more).1,
        (walk sides rule (bar + bars.length) (advance sides rule bar p s bars).2.1
          (advance sides rule bar p s bars).2.2 more).2) := by
  -- A bar in front is never the last one, since something is left after it.
  induction bars generalizing bar p s with
  | nil => rfl
  | cons x rest ih =>
    rw [List.cons_append, walk_cons (List.append_ne_nil_of_right_ne_nil _ h), ih,
      List.length_cons, Nat.add_comm rest.length 1, ← Nat.add_assoc]
    rfl

/-- One bar more. -/
theorem advance_concat (bars : List (Bool × Bool)) (bar : ℕ) (p : Position) (s : σ)
    (buy sell : Bool) :
    advance sides rule bar p s (bars ++ [(buy, sell)]) =
      let before := advance sides rule bar p s bars
      let after := step sides rule (bar + bars.length) before.2.1 before.2.2 buy sell
      (before.1 ++ [after.1], after.2) := by
  induction bars generalizing bar p s with
  | nil => rfl
  | cons x rest ih =>
    rw [List.cons_append, List.length_cons, Nat.add_comm rest.length 1, ← Nat.add_assoc]
    exact congrArg (fun a => (_ :: a.1, a.2)) (ih _ _ _)

/-- A walk is an advance to any of its bars and a walk from there on. -/
theorem walk_split {bars : List (Bool × Bool)} {i : ℕ} (hi : i < bars.length) (p : Position)
    (s : σ) :
    walk sides rule 0 p s bars =
      let before := advance sides rule 0 p s (bars.take i)
      let after := walk sides rule i before.2.1 before.2.2 (bars.drop i)
      (before.1 ++ after.1, after.2) := by
  have hmore : bars.drop i ≠ [] := fun h => Nat.not_le_of_lt hi (List.drop_eq_nil_iff.mp h)
  conv_lhs => rw [← List.take_append_drop i bars, walk_append _ hmore]
  rw [List.length_take_of_le (Nat.le_of_lt hi), Nat.zero_add]

theorem length_advance_take {bars : List (Bool × Bool)} {i : ℕ} (hi : i < bars.length)
    (p : Position) (s : σ) : (advance sides rule 0 p s (bars.take i)).1.length = i :=
  (length_advance _ _ _ _).trans (List.length_take_of_le (Nat.le_of_lt hi))

/-- The rows of a walk before a bar are those of the advance to it. -/
theorem take_walk {bars : List (Bool × Bool)} {i : ℕ} (hi : i < bars.length) (p : Position)
    (s : σ) :
    (walk sides rule 0 p s bars).1.take i = (advance sides rule 0 p s (bars.take i)).1 := by
  rw [walk_split hi]
  exact List.take_left' (length_advance_take hi p s)

theorem getElem?_walk_of_lt {bars : List (Bool × Bool)} {i k : ℕ} (hik : i < k)
    (hk : k < bars.length) (p : Position) (s : σ) :
    (walk sides rule 0 p s bars).1[i]? = (advance sides rule 0 p s (bars.take k)).1[i]? := by
  rw [← take_walk hk, List.getElem?_take_of_lt hik]

/-- The row of a bar is that of a step from where the advance to it ends; if the bar is
the last, the row is settled. -/
theorem getElem?_walk (sides : PositionType) (rule : ExitRule σ) {bars : List (Bool × Bool)}
    {i : ℕ} {buy sell : Bool} (hbar : bars[i]? = some (buy, sell)) (p : Position) (s : σ) :
    (walk sides rule 0 p s bars).1[i]? =
      let before := advance sides rule 0 p s (bars.take i)
      let after := step sides rule i before.2.1 before.2.2 buy sell
      some (if i + 1 < bars.length then after.1 else settle i after.1 after.2.1) := by
  obtain ⟨hi, hget⟩ := List.getElem?_eq_some_iff.mp hbar
  have hlength : (advance sides rule 0 p s (bars.take i)).1.length = i :=
    length_advance_take hi p s
  rw [walk_split hi, List.getElem?_append_right (Nat.le_of_eq hlength), hlength, Nat.sub_self,
    List.drop_eq_getElem_cons hi, hget]
  -- Only the last bar has its row settled.
  rcases Nat.lt_or_ge (i + 1) bars.length with hlt | hge
  · have hrest : bars.drop (i + 1) ≠ [] := fun h =>
      Nat.not_le_of_lt hlt (List.drop_eq_nil_iff.mp h)
    rw [walk_cons hrest]
    exact congrArg some (if_pos hlt).symm
  · rw [List.drop_eq_nil_iff.mpr hge, walk_singleton]
    exact congrArg some (if_neg (Nat.not_lt_of_le hge)).symm

theorem length_walk (bars : List (Bool × Bool)) (bar : ℕ) (p : Position) (s : σ) :
    (walk sides rule bar p s bars).1.length = bars.length := by
  -- The definition splits off the first bar, but it is the last one that is treated apart.
  rcases List.eq_nil_or_concat bars with rfl | ⟨first, ⟨buy, sell⟩, rfl⟩
  · rfl
  · rw [List.concat_eq_append, walk_append first (List.cons_ne_nil _ _), walk_singleton,
      List.length_append, List.length_append, length_advance]
    rfl

end Reconciliation

end TradeSignals
