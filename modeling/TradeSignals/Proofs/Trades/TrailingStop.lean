import TradeSignals.Proofs.Market.ExactNumbers
import TradeSignals.Proofs.Trades.ExitWindow
import TradeSignals.Proofs.Trades.HeldBars

/-!
# A trailing stop leaves no later than a normal one

A stop loss that trails goes by the best close since the entry, and a normal one by the entry
itself. As long as neither of the two has left, both know the same of the position, and the best
close is at least as good as that of the entry (`TradeSignals.ExitOverlay.Favourable`), also after
the position was entered anew. So where a normal stop of some percent leaves, one of the same
percentage that trails leaves, too (`TradeSignals.ExitOverlay.stops_trailing`), and two
reconciliations that differ in nothing else open their first position on the same bar, and the one
whose stop trails closes it no later (`TradeSignals.Reconciliation.withExits_trailing_noLater`).

The two walks go side by side until one of the rules leaves. That holds for any two rules of which
one leaves wherever the other one does and which remember the same as long as both stay
(`TradeSignals.Reconciliation.Sooner`). Once the first of them has left, it is enough that the other
walk closes its position at some time (`TradeSignals.Reconciliation.Moves.exists_exit`).
-/

namespace TradeSignals

namespace Reconciliation

variable {σ : Type} {sides : PositionType} {bar since : ℕ} {side : Side}

/-! ### The first trade -/

/-- **A position is left no later** in the second of two histories: what comes first in both of
them, from a bar on, is that it is closed. -/
inductive LeftNoLater (side : Side) (bar : ℕ) :
    List (TradeKind × ℕ) → List (TradeKind × ℕ) → Prop
  /-- It is closed on the same bar or before. -/
  | left {last last' : ℕ} (rest rest' : List (TradeKind × ℕ)) (hbar : bar ≤ last')
      (hlast : last' ≤ last) :
      LeftNoLater side bar ((.exitOn side, last) :: rest) ((.exitOn side, last') :: rest')

/-- **The first position is left no later** in the second of two histories: if there is one, it is
opened on the same bar and on the same side in both. -/
inductive FirstLeftNoLater : List (TradeKind × ℕ) → List (TradeKind × ℕ) → Prop
  /-- No position is opened in either of them. -/
  | unopened : FirstLeftNoLater [] []
  /-- A position is opened in both of them. -/
  | opened {side : Side} {first : ℕ} {later later' : List (TradeKind × ℕ)}
      (h : LeftNoLater side (first + 1) later later') :
      FirstLeftNoLater ((.entryOn side, first) :: later) ((.entryOn side, first) :: later')

theorem LeftNoLater.of_succ {later later' : List (TradeKind × ℕ)}
    (h : LeftNoLater side (bar + 1) later later') : LeftNoLater side bar later later' := by
  cases h with
  | left rest rest' hbar hlast => exact .left rest rest' (Nat.le_of_succ_le hbar) hlast

theorem rowEvents_idle (bar : ℕ) : rowEvents bar .idle = [] :=
  rfl

theorem rowEvents_entry (bar : ℕ) (side : Side) :
    rowEvents bar (.entry side) = [(.entryOn side, bar)] := by
  cases side <;> rfl

theorem rowEvents_exit (bar : ℕ) (side : Side) :
    rowEvents bar (.exit side) = [(.exitOn side, bar)] := by
  cases side <;> rfl

/-- Of a turn the exit comes first. -/
theorem rowEvents_reversal (bar : ℕ) (side : Side) :
    rowEvents bar (.reversal side) = [(.exitOn side, bar), (.entryOn side.opposite, bar)] := by
  cases side <;> rfl

/-- The signals that change a position close it first. -/
theorem Listed.exists_events {buy sell : Bool} {row : TradeRow}
    (h : Listed sides (some side) buy sell row) (bar : ℕ) :
    ∃ rest, rowEvents bar row = (.exitOn side, bar) :: rest := by
  cases h <;> exact ⟨_, rfl⟩

/-- Where nothing is held, the signals open a position. -/
theorem transition?_none_eq_some {buy sell : Bool} {row : TradeRow} {next : Option Side}
    (h : transition? sides none buy sell = some (row, next)) :
    ∃ side, sides.takes side = true ∧ row = .entry side ∧ next = some side := by
  cases sides <;> cases buy <;> cases sell <;> cases h <;> exact ⟨_, rfl, rfl, rfl⟩

/-- **Moves that begin with a position and end without one close it.** -/
theorem Moves.exists_exit {p q : Position} {rows : List TradeRow} (h : Moves sides bar p rows q)
    (hp : p = .held side since) (hq : q = .flat) :
    ∃ last rest, bar ≤ last ∧ eventsFrom bar rows = (.exitOn side, last) :: rest := by
  induction h with
  | nil =>
    rw [hp] at hq
    cases hq
  | @cons bar p q r row rows hmove hrest ih =>
    subst hp
    cases hmove with
    | idle =>
      obtain ⟨last, rest, hlast, hevents⟩ := ih rfl hq
      exact ⟨last, rest, Nat.le_of_succ_le hlast, hevents⟩
    | exit => exact ⟨bar, _, le_rfl, by rw [eventsFrom, rowEvents_exit]; rfl⟩
    | reversal => exact ⟨bar, _, le_rfl, by rw [eventsFrom, rowEvents_reversal]; rfl⟩

/-- A walk from any position makes moves that end with nothing held. -/
theorem moves_walk_standing (rule : ExitRule σ) {bars : List (Bool × Bool)} (hbars : bars ≠ [])
    {p : Position} (hp : p.Standing sides bar) (s : σ) :
    Moves sides bar p (walk sides rule bar p s bars).1 .flat := by
  rcases List.eq_nil_or_concat bars with rfl | ⟨first, ⟨buy, sell⟩, rfl⟩
  · exact absurd rfl hbars
  · obtain ⟨hmoves, hstanding⟩ := moves_advance sides bar rule first s hp
    rw [List.concat_eq_append, walk_append first (List.cons_ne_nil _ _), walk_singleton]
    refine hmoves.concat ?_
    rw [length_advance, (move_step rule hstanding _ buy sell).settle_eq hstanding]
    exact move_closing hstanding

/-! ### Two rules side by side -/

/-- **A rule that leaves no later** than another one: where it stays, the other one stays, too, and
both remember the same. What is known of the position is carried along. -/
def Sooner (early late : ExitRule σ) (Known : Side → ℕ → σ → Prop) : Prop :=
  ∀ s held, Known held.side held.since s → (early s held).1 = false →
    late s held = early s held ∧ Known held.side held.since (early s held).2

variable {early late : ExitRule σ} {Known : Side → ℕ → σ → Prop}

/-- The walk over one bar closes what is held. -/
theorem events_walk_singleton (rule : ExitRule σ) {p : Position} (hp : p.Standing sides bar) (s : σ)
    (buy sell : Bool) :
    eventsFrom bar (walk sides rule bar p s [(buy, sell)]).1 = rowEvents bar (closing p) := by
  rw [walk_singleton, (move_step rule hp s buy sell).settle_eq hp, eventsFrom, eventsFrom,
    List.append_nil]

/-- **A position is left no later** under the rule that leaves no later. -/
theorem leftNoLater_walk (h : Sooner early late Known) (bars : List (Bool × Bool))
    (hbars : bars ≠ []) (bar : ℕ) (s : σ) (hp : (Position.held side since).Standing sides bar)
    (hknown : Known side since s) :
    LeftNoLater side bar (eventsFrom bar (walk sides late bar (.held side since) s bars).1)
      (eventsFrom bar (walk sides early bar (.held side since) s bars).1) := by
  -- By induction on the bars: on each of them both walks stand at the same place.
  induction bars generalizing bar s with
  | nil => exact absurd rfl hbars
  | cons first more ih =>
    obtain ⟨buy, sell⟩ := first
    by_cases hmore : more = []
    · subst hmore
      rw [events_walk_singleton late hp, events_walk_singleton early hp, closing, rowEvents_exit]
      exact .left [] [] le_rfl le_rfl
    rcases htable : transition? sides (some side) buy sell with _ | ⟨row, next⟩
    · rcases hasked : early s ⟨bar, side, since, opens side buy sell⟩ with ⟨_ | _, m⟩
      · -- Both rules stay, and the walks go on side by side.
        obtain ⟨hsame, hnext⟩ := h s _ hknown (congrArg Prod.fst hasked)
        rw [hasked] at hsame hnext
        rw [walk_cons hmore, walk_cons hmore, step_held htable, step_held htable, hsame, hasked,
          if_neg Bool.false_ne_true, eventsFrom, eventsFrom, rowEvents_idle]
        exact (ih hmore (bar + 1) m ⟨hp.1, Nat.lt_succ_of_lt hp.2⟩ hnext).of_succ
      · -- The early rule leaves, and the other walk closes the position at some time.
        obtain ⟨last, rest, hlast, hevents⟩ :=
          (moves_walk_standing late hbars hp s).exists_exit rfl rfl
        rw [hevents, walk_cons hmore, step_held htable, hasked, if_pos rfl, eventsFrom,
          rowEvents_exit]
        exact .left rest _ le_rfl hlast
    · -- A signal closes the position in both walks.
      obtain ⟨rest, hrest⟩ := (transition?_eq_some_iff.1 ⟨next, htable⟩).exists_events bar
      have hstep : ∀ rule : ExitRule σ, step sides rule bar (.held side since) s buy sell =
          (row, .on bar next, s) := fun _ => step_of_some htable
      rw [walk_cons hmore, walk_cons hmore, hstep, hstep, eventsFrom, eventsFrom, hrest]
      exact .left _ _ le_rfl le_rfl

/-- **The first position is left no later** under the rule that leaves no later. -/
theorem firstLeftNoLater_walk (h : Sooner early late Known) {s : σ}
    (hknown : ∀ side since, Known side since s) (bars : List (Bool × Bool)) (bar : ℕ) :
    FirstLeftNoLater (eventsFrom bar (walk sides late bar .flat s bars).1)
      (eventsFrom bar (walk sides early bar .flat s bars).1) := by
  -- Until a position is opened, neither rule is asked, and so both walks are the same one.
  induction bars generalizing bar with
  | nil => exact .unopened
  | cons first more ih =>
    obtain ⟨buy, sell⟩ := first
    have hflat : Position.flat.Standing sides bar := trivial
    by_cases hmore : more = []
    · subst hmore
      rw [events_walk_singleton late hflat, events_walk_singleton early hflat]
      exact .unopened
    rcases htable : transition? sides none buy sell with _ | ⟨row, next⟩
    · rw [walk_cons hmore, walk_cons hmore, step_flat htable, step_flat htable]
      exact ih (bar + 1)
    · obtain ⟨side, htakes, rfl, rfl⟩ := transition?_none_eq_some htable
      have hstep : ∀ rule : ExitRule σ, step sides rule bar .flat s buy sell =
          (.entry side, .on bar (some side), s) := fun _ => step_of_some htable
      rw [walk_cons hmore, walk_cons hmore, hstep, hstep, eventsFrom, eventsFrom, rowEvents_entry]
      exact .opened (leftNoLater_walk h more hmore (bar + 1) s ⟨htakes, Nat.lt_succ_self bar⟩
        (hknown side bar))

end Reconciliation

/-! ### Stops -/

namespace ExitOverlay

open Quantity

variable {K : Type} [OrderedField K] (root : K → K)

/-- A stop loss over closes in exact arithmetic, and no take profit. -/
def stopAt (closes : List K) (percent : K) (kind : StopKind) : ExitOverlay (ExactNumber root) :=
  ⟨closes.map .number, some ⟨kind, .number percent⟩, none⟩

variable {root}

/-- Is a price at least as good as another one for a side? -/
def AsGood (side : Side) (x y : K) : Prop :=
  match side with
  | .long => y ≤ x
  | .short => x ≤ y

/-- **The best close is at least as good as the entry,** if there is a close on the bar of the
entry. -/
def Favourable (side : Side) (t : Tracked (ExactNumber root)) : Prop :=
  ∀ entry, t.entry = .number entry → ∃ extreme, t.extreme = .number extreme ∧
    AsGood side extreme entry

/-- A close is a number, or missing. -/
theorem close_stopAt (closes : List K) (percent : K) (kind : StopKind) (bar : ℕ) :
    (stopAt root closes percent kind).close bar = .ofOption closes[bar]? := by
  rw [close, List.getD_eq_getElem?_getD, stopAt, List.getElem?_map]
  cases closes[bar]? <;> rfl

/-- A position that is entered is as good as its entry. -/
theorem favourable_entered (side : Side) (since : ℕ) (price : ExactNumber root) :
    Favourable side ⟨since, price, price⟩ := by
  intro entry hentry
  refine ⟨entry, hentry, ?_⟩
  cases side <;> exact le_refl entry

/-- **One more close** makes the best one no worse. -/
theorem Favourable.followed {side : Side} {t : Tracked (ExactNumber root)} (h : Favourable side t)
    (close : Option K) :
    Favourable side { t with extreme := better side t.extreme (.ofOption close) } := by
  intro entry hentry
  obtain ⟨extreme, hextreme, hgood⟩ := h entry hentry
  dsimp only
  rw [hextreme]
  cases close with
  | none => exact ⟨extreme, by cases side <;> rfl, hgood⟩
  | some x =>
    cases side with
    | long => exact ⟨_, ExactNumber.max_number extreme x, hgood.trans (le_max_left extreme x)⟩
    | short => exact ⟨_, ExactNumber.min_number extreme x, (min_le_left extreme x).trans hgood⟩

/-- Is a close worse than a price by so large a part of it? -/
def Beyond (part : K) (side : Side) (price close : K) : Prop :=
  match side with
  | .long => close ≤ price * (1 - part)
  | .short => price * (1 + part) ≤ close

instance (part : K) (side : Side) (price close : K) : Decidable (Beyond part side price close) :=
  match side with
  | .long => inferInstanceAs (Decidable (close ≤ price * (1 - part)))
  | .short => inferInstanceAs (Decidable (price * (1 + part) ≤ close))

/-- **A close that is so much worse than a price is so much worse than a better one,** too. -/
theorem Beyond.of_asGood {part : K} (hnonneg : 0 ≤ part) (hone : part ≤ 1) {side : Side}
    {price better close : K} (h : Beyond part side price close)
    (hgood : AsGood side better price) : Beyond part side better close := by
  cases side with
  | long => exact h.trans (mul_le_mul_of_nonneg_right hgood (sub_nonneg.2 hone))
  | short => exact (mul_le_mul_of_nonneg_right hgood (add_nonneg zero_le_one hnonneg)).trans h

/-- What a stop measures a loss from. -/
def reference (kind : StopKind) (t : Tracked (ExactNumber root)) : ExactNumber root :=
  match kind with
  | .normal => t.entry
  | .trailing => t.extreme

theorem lowered_number (price percent : K) :
    lowered (.number price : ExactNumber root) (.number percent) =
      .number (price * (1 - percent / 100)) := by
  rw [lowered, ExactNumber.ofInt_one, ExactNumber.ofInt_ofNat,
    ExactNumber.number_div _ (by norm_num), ExactNumber.number_sub, ExactNumber.number_mul]

theorem raised_number (price percent : K) :
    raised (.number price : ExactNumber root) (.number percent) =
      .number (price * (1 + percent / 100)) := by
  rw [raised, ExactNumber.ofInt_one, ExactNumber.ofInt_ofNat,
    ExactNumber.number_div _ (by norm_num), ExactNumber.number_add, ExactNumber.number_mul]

/-- **When a stop leaves:** there is a price to measure from, and a close so much worse. -/
theorem stops_iff_beyond (kind : StopKind) (percent : K) (side : Side)
    (t : Tracked (ExactNumber root)) (close : Option K) :
    stops ⟨kind, .number percent⟩ side t (.ofOption close) = true ↔
      ∃ price x, reference kind t = .number price ∧ close = some x ∧
        Beyond (percent / 100) side price x := by
  have hreference : stops ⟨kind, .number percent⟩ side t (.ofOption close) = match side with
      | .long => le (.ofOption close) (lowered (reference kind t) (.number percent))
      | .short => le (raised (reference kind t) (.number percent)) (.ofOption close) := by
    cases kind <;> rfl
  rw [hreference]
  -- With anything but numbers there is nothing to compare.
  cases reference kind t with
  | number price =>
    cases close with
    | none =>
      rw [lowered_number, raised_number]
      cases side <;> exact ⟨fun h => absurd h Bool.false_ne_true, nofun⟩
    | some x =>
      rw [lowered_number, raised_number, ExactNumber.ofOption, ExactNumber.le_number,
        ExactNumber.le_number]
      constructor
      · intro h
        refine ⟨price, x, rfl, rfl, ?_⟩
        cases side <;> exact of_decide_eq_true h
      · rintro ⟨_, _, ⟨⟩, ⟨⟩, h⟩
        cases side <;> exact decide_eq_true h
  | _ => cases side <;> cases close <;> exact ⟨fun h => absurd h Bool.false_ne_true, nofun⟩

/-- **Where a normal stop leaves, one that trails leaves, too.** -/
theorem stops_trailing {percent : K} (hpos : 0 < percent) (hle : percent ≤ 100) {side : Side}
    {t : Tracked (ExactNumber root)} (h : Favourable side t) {close : Option K}
    (hstops : stops ⟨.normal, .number percent⟩ side t (.ofOption close) = true) :
    stops ⟨.trailing, .number percent⟩ side t (.ofOption close) = true := by
  obtain ⟨entry, x, hentry, rfl, hbeyond⟩ := (stops_iff_beyond ..).1 hstops
  obtain ⟨extreme, hextreme, hgood⟩ := h entry hentry
  have hnonneg : 0 ≤ percent / 100 := div_nonneg hpos.le (by norm_num)
  have hone : percent / 100 ≤ 1 := (div_le_one (by norm_num)).2 hle
  exact (stops_iff_beyond ..).2
    ⟨extreme, x, hextreme, rfl, hbeyond.of_asGood hnonneg hone hgood⟩

/-- What a rule knows of a position after the close of a bar. -/
def watching (x : ExitOverlay (ExactNumber root)) (m : Memory (ExactNumber root)) (held : HeldBar) :
    Tracked (ExactNumber root) :=
  { x.tracking m held.since with
    extreme := better held.side (x.tracking m held.since).extreme (x.close held.bar) }

section Rule

variable (closes : List K) (percent : K) (kind : StopKind) (m : Memory (ExactNumber root))
  {held : HeldBar}

/-- A stop loss begins anew where the signal is there again. -/
theorem rule_stopAt_of_fresh (hfresh : held.freshEntry = true) :
    let x := stopAt root closes percent kind
    x.rule m held =
      (false, { m with tracked := some ⟨held.since, x.close held.bar, x.close held.bar⟩ }) := by
  intro x
  rw [rule, if_neg fun h => absurd h.1 Bool.false_ne_true]
  exact if_pos hfresh

/-- Elsewhere it leaves or goes on by what it knows. -/
theorem rule_stopAt_of_stale (hstale : held.freshEntry = false) :
    let x := stopAt root closes percent kind
    x.rule m held =
      if stops ⟨kind, .number percent⟩ held.side (x.watching m held) (x.close held.bar) then
        (true, ⟨none, m.fired ++ [(held.bar, .stop ⟨kind, .number percent⟩)]⟩)
      else (false, { m with tracked := some (x.watching m held) }) := by
  intro x
  have hstop : x.stopLoss = some ⟨kind, .number percent⟩ := rfl
  have hcause : x.cause? held.side (x.watching m held) (x.close held.bar) =
      if stops ⟨kind, .number percent⟩ held.side (x.watching m held) (x.close held.bar) then
        some (.stop ⟨kind, .number percent⟩) else none := by
    rw [cause?, hstop, Option.filter_some]
    split_ifs <;> rfl
  rw [rule, if_neg fun h => absurd h.1 Bool.false_ne_true]
  dsimp only
  rw [if_neg (Bool.eq_false_iff.1 hstale)]
  unfold watching at hcause ⊢
  rw [hcause]
  split_ifs <;> rfl

end Rule

/-- What is watched is what is known. -/
theorem Favourable.tracking {x : ExitOverlay (ExactNumber root)} {m : Memory (ExactNumber root)}
    {side : Side} {t : Tracked (ExactNumber root)} (h : Favourable side t)
    (htracked : m.tracked = some t) :
    Favourable side (x.tracking m t.since) :=
  (tracking_of_some htracked).symm ▸ h

/-- **The stop that trails leaves no later** than the normal one. -/
theorem sooner_stopAt {percent : K} (hpos : 0 < percent) (hle : percent ≤ 100) (closes : List K) :
    Reconciliation.Sooner (stopAt root closes percent .trailing).rule
      (stopAt root closes percent .normal).rule
      fun side since m =>
        Favourable side ((stopAt root closes percent .normal).tracking m since) := by
  intro m held hknown hstays
  cases hfresh : held.freshEntry with
  | true =>
    rw [rule_stopAt_of_fresh _ _ _ m hfresh, rule_stopAt_of_fresh _ _ _ m hfresh]
    exact ⟨rfl, (favourable_entered held.side held.since _).tracking rfl⟩
  | false =>
    let x := stopAt root closes percent .normal
    have hfollowed : Favourable held.side (x.watching m held) := by
      rw [watching, close_stopAt]
      exact hknown.followed closes[held.bar]?
    -- What is known of the position does not depend on the kind of the stop.
    have hrule : (stopAt root closes percent .trailing).rule m held =
        if stops ⟨.trailing, .number percent⟩ held.side (x.watching m held) (x.close held.bar)
        then _
        else (false, { m with tracked := some (x.watching m held) }) :=
      rule_stopAt_of_stale closes percent .trailing m hfresh
    rw [hrule] at hstays ⊢
    split_ifs at hstays ⊢ with htrailing
    have hnormal : ¬stops ⟨.normal, .number percent⟩ held.side (x.watching m held)
        (x.close held.bar) = true := by
      rw [close_stopAt] at htrailing ⊢
      exact mt (stops_trailing hpos hle hfollowed) htrailing
    have hsince : (x.watching m held).since = held.since := since_tracking x m held.since
    rw [rule_stopAt_of_stale _ _ _ m hfresh, if_neg hnormal]
    exact ⟨rfl, hsince ▸ hfollowed.tracking rfl⟩

end ExitOverlay

namespace Reconciliation

open ExitOverlay

variable {K : Type} [OrderedField K] (root : K → K)

/-- **A stop loss that trails leaves no later than a normal one** of the same percentage: the first
position is opened on the same bar and on the same side with both, and with the one that trails it
is closed on the same bar or before. -/
theorem withExits_trailing_noLater {percent : K} (hpos : 0 < percent) (hle : percent ≤ 100)
    (sides : PositionType) (closes : List K) (buy sell : List Bool) :
    let trades := fun kind =>
      events (withExits sides (stopAt root closes percent kind).rule .start buy sell).1
    FirstLeftNoLater (trades .normal) (trades .trailing) :=
  firstLeftNoLater_walk (sooner_stopAt hpos hle closes)
    (fun side _ => favourable_entered side _ _) (buy.zip sell) 0

/-- After a peak the stop that trails leaves on the third bar, and the normal one not at all. -/
theorem withExits_trailing_noLater_peak :
    let trades := fun kind =>
      events (withExits .long (stopAt id [100, 120, 107, 110, 109] (10 : ℚ) kind).rule .start
        [true, false, false, false, false] [false, false, false, false, false]).1
    trades .normal = [(.longEntry, 0), (.longExit, 4)] ∧
      trades .trailing = [(.longEntry, 0), (.longExit, 2)] ∧
      FirstLeftNoLater (trades .normal) (trades .trailing) :=
  ⟨by decide +kernel, by decide +kernel,
    withExits_trailing_noLater id (by norm_num) (by norm_num) .long [100, 120, 107, 110, 109]
      [true, false, false, false, false] [false, false, false, false, false]⟩

end Reconciliation

end TradeSignals
