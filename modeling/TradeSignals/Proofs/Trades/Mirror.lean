import Mathlib.Data.List.Zip
import TradeSignals.Proofs.Trades.History

/-!
# Long and short are mirror images

Whatever can be done on one side of the market can be done on the other. To see a reconciliation in
the mirror, exchange the signals to buy with those to sell, the long side with the short one in
which sides may be taken, and let the exit rule see the side that is held in the mirror, too. Then
every row comes out in the mirror, on the last bar as on all others, and the rule is asked about the
same bars and answers the same (`TradeSignals.Reconciliation.withExits_mirror`).

The two walks go side by side. What is known to both of them is related by mirroring, except for
what the two rules remember, which may be of different kinds: it is enough that one memory can be
computed from the other (`TradeSignals.Reconciliation.walk_mirror`). A rule that also writes down
what it is asked remembers a mirrored list, and so both questions are answered by one simulation.
-/

namespace TradeSignals

/-! ### In the mirror -/

/-- A change in the mirror: the same on the other side. -/
def TradeKind.mirror : TradeKind → TradeKind
  | .longEntry => .shortEntry
  | .longExit => .shortExit
  | .shortEntry => .longEntry
  | .shortExit => .longExit

/-- A row in the mirror. -/
def TradeRow.mirror (row : TradeRow) : TradeRow :=
  ⟨row.sell, row.buy, row.short.map .mirror, row.long.map .mirror⟩

/-- A position in the mirror. -/
def Position.mirror : Position → Position
  | .flat => .flat
  | .held side since => .held side.opposite since

/-- A bar on which a position is held, in the mirror: the bars and the signal are the same. -/
def HeldBar.mirror (held : HeldBar) : HeldBar := { held with side := held.side.opposite }

/-- Questions about such bars in the mirror, with the answers to them. -/
def HeldBar.mirrorAll (asked : List (HeldBar × Bool)) : List (HeldBar × Bool) :=
  asked.map fun entry => (entry.1.mirror, entry.2)

/-- Which sides may be taken, in the mirror. -/
def PositionType.mirror : PositionType → PositionType
  | .long => .short
  | .short => .long
  | .longShort => .longShort

/-- **An exit rule in the mirror:** it answers about a bar what the rule answers about the bar in
the mirror. -/
def ExitRule.mirror {σ : Type} (rule : ExitRule σ) : ExitRule σ := fun s held => rule s held.mirror

theorem Side.opposite_opposite (side : Side) : side.opposite.opposite = side := by
  cases side <;> rfl

theorem HeldBar.mirror_mirror (held : HeldBar) : held.mirror.mirror = held := by
  rw [mirror, mirror, Side.opposite_opposite]

theorem TradeRow.mirror_exit (side : Side) : (exit side).mirror = exit side.opposite := by
  cases side <;> rfl

theorem Position.side?_mirror (p : Position) : p.mirror.side? = p.side?.map Side.opposite := by
  cases p <;> rfl

theorem Position.mirror_on (bar : ℕ) (held : Option Side) :
    (Position.on bar held).mirror = .on bar (held.map Side.opposite) := by
  cases held <;> rfl

namespace Reconciliation

/-! ### One bar -/

/-- The signal that opens a position, in the mirror. -/
theorem opens_mirror (side : Side) (buy sell : Bool) :
    opens side.opposite sell buy = opens side buy sell := by
  cases side <;> rfl

/-- **The table of transitions is symmetric.** -/
theorem transition?_mirror (sides : PositionType) (held : Option Side) (buy sell : Bool) :
    transition? sides.mirror (held.map Side.opposite) sell buy =
      (transition? sides held buy sell).map fun t => (t.1.mirror, t.2.map Side.opposite) := by
  rcases held with _ | side
  · cases sides <;> cases buy <;> cases sell <;> rfl
  · cases sides <;> cases side <;> cases buy <;> cases sell <;> rfl

/-- The last bar is settled in the mirror as it is elsewhere. -/
theorem settle_mirror (bar : ℕ) (row : TradeRow) (p : Position) :
    settle bar row.mirror p.mirror = (settle bar row p).mirror := by
  obtain ⟨buy, sell, long, short⟩ := row
  have hshort : short.map TradeKind.mirror = some .longExit ↔ short = some .shortExit := by
    rcases short with _ | kind
    · decide
    · cases kind <;> decide
  have hlong : long.map TradeKind.mirror = some .shortExit ↔ long = some .longExit := by
    rcases long with _ | kind
    · decide
    · cases kind <;> decide
  cases p with
  | flat => rfl
  | held side since =>
    by_cases hsince : since = bar
    · cases side <;>
        simp [settle, Position.mirror, Side.opposite, TradeRow.mirror, hsince, hshort, hlong]
    · cases side <;> simp [settle, Position.mirror, Side.opposite, TradeRow.mirror, hsince,
        TradeKind.mirror]

section Walks

variable {σ τ : Type} {sides : PositionType} {rule : ExitRule σ} {rule' : ExitRule τ} {f : σ → τ}
  (h : ∀ s held, rule' (f s) held.mirror = ((rule s held).1, f (rule s held).2))

include h

/-- **A step in the mirror.** -/
theorem step_mirror (bar : ℕ) (p : Position) (s : σ) (buy sell : Bool) :
    step sides.mirror rule' bar p.mirror (f s) sell buy =
      let after := step sides rule bar p s buy sell
      (after.1.mirror, after.2.1.mirror, f after.2.2) := by
  have htable := transition?_mirror sides p.side? buy sell
  rw [← Position.side?_mirror] at htable
  rcases hnext : transition? sides p.side? buy sell with _ | ⟨row, next⟩
  · rw [hnext, Option.map_none] at htable
    cases p with
    | flat =>
      rw [step_flat hnext]
      exact step_flat htable
    | held side since =>
      let held : HeldBar := ⟨bar, side, since, opens side buy sell⟩
      -- The other rule is asked the same question in the mirror, and gives the same answer.
      have hheld : ⟨bar, side.opposite, since, opens side.opposite sell buy⟩ = held.mirror := by
        rw [opens_mirror]
        rfl
      have hstep : step sides.mirror rule' bar (.held side.opposite since) (f s) sell buy =
          if (rule s held).1 then (.exit side.opposite, .flat, f (rule s held).2)
          else (.idle, .held side.opposite since, f (rule s held).2) := by
        rw [step_held htable, hheld, h]
      refine hstep.trans ?_
      rw [step_held hnext]
      split
      · rw [← TradeRow.mirror_exit]
        rfl
      · rfl
  · rw [hnext, Option.map_some] at htable
    rw [step_of_some hnext, step_of_some htable, ← Position.mirror_on]

/-- **A walk in the mirror** gives the rows in the mirror. -/
theorem walk_mirror (bars : List (Bool × Bool)) (bar : ℕ) (p : Position) (s : σ) :
    walk sides.mirror rule' bar p.mirror (f s) (bars.map Prod.swap) =
      ((walk sides rule bar p s bars).1.map TradeRow.mirror,
        f (walk sides rule bar p s bars).2) := by
  induction bars generalizing bar p s with
  | nil => rfl
  | cons first rest ih =>
    obtain ⟨buy, sell⟩ := first
    have hstep : step sides.mirror rule' bar p.mirror (f s) sell buy = _ :=
      step_mirror h bar p s buy sell
    rcases rest with _ | ⟨second, rest⟩
    · rw [List.map_singleton, Prod.swap_prod_mk, walk_singleton, walk_singleton, hstep,
        List.map_singleton, settle_mirror]
    · rw [List.map_cons, Prod.swap_prod_mk, walk_cons (by simp), hstep, ih,
        walk_cons (List.cons_ne_nil _ _), List.map_cons]

/-- Rules that write down what they are asked write down the same in the mirror. -/
theorem recording_mirror (s : σ × List (HeldBar × Bool)) (held : HeldBar) :
    rule'.recording (s.map f HeldBar.mirrorAll) held.mirror =
      ((rule.recording s held).1, (rule.recording s held).2.map f HeldBar.mirrorAll) := by
  simp [ExitRule.recording, HeldBar.mirrorAll, h]

end Walks

/-- **Long and short are mirror images.** With the signals exchanged, the sides exchanged in which
sides may be taken, and the exit rule in the mirror, a reconciliation gives the rows in the mirror,
and the rule remembers the same in the end. If the rules write down what they are asked and what
they answer, then they write down the same questions, of the same bars in the same order, about the
positions in the mirror, and the same answers. -/
theorem withExits_mirror {σ : Type} (sides : PositionType) (rule : ExitRule σ) (s : σ)
    (buy sell : List Bool) :
    withExits sides.mirror rule.mirror s sell buy =
        ((withExits sides rule s buy sell).1.map TradeRow.mirror,
          (withExits sides rule s buy sell).2) ∧
      withExits sides.mirror rule.mirror.recording (s, []) sell buy =
        let recorded := withExits sides rule.recording (s, []) buy sell
        (recorded.1.map TradeRow.mirror, recorded.2.1, HeldBar.mirrorAll recorded.2.2) := by
  have hrule : ∀ s held, rule.mirror s held.mirror = ((rule s held).1, id (rule s held).2) := by
    intro s held
    rw [ExitRule.mirror, HeldBar.mirror_mirror]
    rfl
  rw [withExits, withExits, withExits, withExits, ← List.zip_swap buy sell]
  exact ⟨walk_mirror hrule (buy.zip sell) 0 .flat s,
    walk_mirror (recording_mirror hrule) (buy.zip sell) 0 .flat (s, [])⟩

end Reconciliation

end TradeSignals
