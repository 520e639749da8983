import TradeSignals.Proofs.Trades.Aligned
import TradeSignals.Proofs.Trades.Questions
import TradeSignals.Proofs.Trades.SharedTable

/-!
# Why a flag is set

The label of a flag is chosen after the reconciliation, from three places: what the exit rule
has written down for the bar, the signal of the bar, and the end of the bars. Nothing says at
that point what it was that set the flag. Still the label is that of what set it
(`TradeSignals.Reconciliation.Explains`), with one exception.

* **The rule left.** What it has written down for a bar in the end is why it left there
  (`TradeSignals.Reconciliation.causeAt?_walk`), and that comes first.
* **A signal changed the position.** Every flag of a row of the table of transitions is the flag
  of a signal that is there.
* **The bars ended.** A position that is held when the last bar begins and is still held after
  it is closed. As a rule there is no signal for the flag of this exit, for otherwise the signal
  would have closed the position itself. But when both sides may be taken, a signal to buy and
  one to sell on the same bar cancel each other, and then the label of an idle signal is given
  to an exit that it did not cause (`TradeSignals.Strategy.run_endOfData_mislabelled`).
-/

namespace TradeSignals

/-! ### What the exit rule writes down -/

namespace ExitOverlay

/-- Why the rule leaves when it is asked about a bar, if it does. -/
def leaving? (x : ExitOverlay Float) (m : Memory Float) (held : HeldBar) :
    Option (ExitCause Float) :=
  if x.stopLoss.isNone ∧ x.takeProfit.isNone then none
  else if held.freshEntry then none
  else
    let t := x.tracking m held.since
    let close := x.close held.bar
    x.cause? held.side { t with extreme := better held.side t.extreme close } close

/-- **One answer of the rule:** whether it leaves, and that it writes down why. -/
theorem rule_spec (x : ExitOverlay Float) (m : Memory Float) (held : HeldBar) :
    (x.rule m held).1 = (x.leaving? m held).isSome ∧
      (x.rule m held).2.fired =
        m.fired ++ ((x.leaving? m held).map fun cause => (held.bar, cause)).toList := by
  rw [rule, leaving?]
  by_cases hnever : x.stopLoss.isNone ∧ x.takeProfit.isNone
  · rw [if_pos hnever, if_pos hnever]
    exact ⟨rfl, (List.append_nil _).symm⟩
  · rw [if_neg hnever, if_neg hnever]
    by_cases hfresh : held.freshEntry = true
    · rw [if_pos hfresh]
      dsimp only
      rw [if_pos hfresh]
      exact ⟨rfl, (List.append_nil _).symm⟩
    · rw [if_neg hfresh]
      dsimp only
      rw [if_neg hfresh]
      split
      next cause hcause =>
        rw [hcause]
        exact ⟨rfl, rfl⟩
      next hcause =>
        rw [hcause]
        exact ⟨rfl, (List.append_nil _).symm⟩

/-- Nothing is written down for a bar that has not come yet. -/
def EarlierOnly (bar : ℕ) (m : Memory Float) : Prop :=
  ∀ entry ∈ m.fired, entry.1 < bar

theorem EarlierOnly.causeAt?_eq_none {bar : ℕ} {m : Memory Float} (h : EarlierOnly bar m) :
    m.causeAt? bar = none :=
  List.lookup_eq_none_iff.2 fun entry hentry => bne_iff_ne.2 (Nat.ne_of_gt (h entry hentry))

end ExitOverlay

namespace Reconciliation

open ExitOverlay

variable {sides : PositionType} {x : ExitOverlay Float}

/-- **What a step writes down:** its bar, if the rule leaves there. -/
theorem fired_step (bar : ℕ) (p : Position) (m : Memory Float) (buy sell : Bool) :
    (step sides x.rule bar p m buy sell).2.2.fired = m.fired ++
      (((asked? sides bar p buy sell).bind (x.leaving? m)).map
        fun cause => (bar, cause)).toList := by
  rw [memory_step]
  rcases hasked : asked? sides bar p buy sell with _ | held
  · exact (List.append_nil _).symm
  · rw [Option.elim_some, (x.rule_spec m held).2, bar_of_asked? hasked, Option.bind_some]

/-- An advance writes down bars that it has passed. -/
theorem earlierOnly_advance (bars : List (Bool × Bool)) {bar : ℕ} {p : Position}
    {m : Memory Float} (h : EarlierOnly bar m) :
    EarlierOnly (bar + bars.length) (advance sides x.rule bar p m bars).2.2 := by
  induction bars generalizing bar p m with
  | nil => exact h
  | cons y rest ih =>
    obtain ⟨buy, sell⟩ := y
    have hstep : EarlierOnly (bar + 1) (step sides x.rule bar p m buy sell).2.2 := by
      intro entry hentry
      rw [fired_step] at hentry
      rcases List.mem_append.1 hentry with hentry | hentry
      · exact Nat.lt_succ_of_lt (h entry hentry)
      · obtain ⟨c, -, rfl⟩ := Option.map_eq_some_iff.1 (Option.mem_toList.1 hentry)
        exact Nat.lt_succ_self bar
    rw [List.length_cons, Nat.add_comm rest.length 1, ← Nat.add_assoc, advance_cons]
    exact ih hstep

section Walk

variable {bars : List (Bool × Bool)} {i : ℕ} {buy sell : Bool}

/-- Why the rule leaves on a bar, if it does, in terms of what a reader of the rows finds. -/
def left? (sides : PositionType) (x : ExitOverlay Float) (bars : List (Bool × Bool))
    (rows : List TradeRow) (bar : ℕ) : Option (ExitCause Float) :=
  (question? sides bars rows bar).bind (x.leaving? (memoryAt sides x.rule .start bars rows bar))

/-- The rule leaves where it fires. -/
theorem isSome_left? (rows : List TradeRow) (bar : ℕ) :
    (left? sides x bars rows bar).isSome = fires sides x.rule .start bars rows bar := by
  rw [left?, fires]
  rcases question? sides bars rows bar with _ | held
  · rfl
  · exact (x.rule_spec _ held).1.symm

/-- **What the rule has written down for a bar in the end** is why it left there. -/
theorem causeAt?_walk (hbar : bars[i]? = some (buy, sell)) :
    (walk sides x.rule 0 .flat .start bars).2.causeAt? i =
      left? sides x bars (walk sides x.rule 0 .flat .start bars).1 i := by
  obtain ⟨hi, hget⟩ := List.getElem?_eq_some_iff.1 hbar
  rw [left?, question?_walk hbar, memoryAt_walk hi, walk_split hi]
  have hearlier : EarlierOnly i (advance sides x.rule 0 .flat .start (bars.take i)).2.2 := by
    have h := @earlierOnly_advance sides x (bars.take i) 0 .flat .start nofun
    rwa [List.length_take_of_le (Nat.le_of_lt hi), Nat.zero_add] at h
  dsimp only
  generalize (advance sides x.rule 0 .flat .start (bars.take i)).2 = before at hearlier ⊢
  obtain ⟨p, m⟩ := before
  -- What comes after the bar is written down for later bars.
  have hlater : (walk sides x.rule i p m (bars.drop i)).2.causeAt? i =
      (step sides x.rule i p m buy sell).2.2.causeAt? i := by
    rw [List.drop_eq_getElem_cons hi, hget]
    rcases hrest : bars.drop (i + 1) with _ | ⟨y, rest⟩
    · rw [walk_singleton]
    · rw [walk_cons (List.cons_ne_nil y rest)]
      exact (laterOnly_walk x _ _ _ _).causeAt? (Nat.lt_succ_self i)
  rw [hlater, Memory.causeAt?, fired_step, List.lookup_append,
    show m.fired.lookup i = none from hearlier.causeAt?_eq_none, Option.none_or]
  rcases (asked? sides i p buy sell).bind (x.leaving? m) with _ | cause
  · rfl
  · exact List.lookup_cons_self

end Walk

/-! ### Flags and signals -/

variable {held : Option Side} {buy sell : Bool} {row : TradeRow}

/-- Every flag of a transition is the flag of a signal that is there. -/
theorem Listed.signal (h : Listed sides held buy sell row) {d : Side}
    (hflag : d.pick row.buy row.sell = true) : d.pick buy sell = true := by
  cases h <;> cases d <;> first | rfl | cases hflag

/-- A transition of a position that is held has the flag that closes it. -/
theorem Listed.closes {side : Side} (h : Listed sides (some side) buy sell row) :
    side.opposite.pick row.buy row.sell = true := by
  cases h <;> rfl

/-- **When the signal to close a position does not close it:** both sides may be taken, and the
other signal is there, too. -/
theorem contested_of_not_listed {side : Side} (htakes : sides.takes side = true)
    (h : ∀ row, ¬Listed sides (some side) buy sell row)
    (hsignal : side.opposite.pick buy sell = true) :
    sides = .longShort ∧ side.pick buy sell = true := by
  -- In all other cases the table has a line for the signal.
  cases sides <;> cases side <;> cases htakes <;> cases buy <;> cases sell <;>
    cases hsignal <;> first
      | exact ⟨rfl, rfl⟩
      | exact absurd .closeLong (h _)
      | exact absurd .closeShort (h _)
      | exact absurd .turnLong (h _)
      | exact absurd .turnShort (h _)

/-- The flags of an exit. -/
theorem eq_opposite_of_exit {side d : Side}
    (h : d.pick (TradeRow.exit side).buy (TradeRow.exit side).sell = true) : d = side.opposite := by
  cases side <;> cases d <;> first | rfl | cases h

/-! ### Labels and what they explain -/

/-- **The label of a flag, and why the flag is set.** Of the bar are given whether it is the
last, the position when it begins, the signals to buy and to sell, and why the exit rule left
there, if it did. A flag is named by the side that it opens a position on. -/
inductive Explains (sides : PositionType) (last : Prop) (p : Position) (buy sell : Option String)
    (left : Option (ExitCause Float)) : Side → String → Prop where
  /-- The exit rule left the position. -/
  | left {side : Side} {since : ℕ} {cause : ExitCause Float} (hp : p = .held side since)
      (hleft : left = some cause) : Explains sides last p buy sell left side.opposite cause.label
  /-- A signal opened, closed or turned the position. -/
  | signal {d : Side} {row : TradeRow} {label : String} (hleft : left = none)
      (hlisted : Listed sides p.side? buy.isSome sell.isSome row)
      (hflag : d.pick row.buy row.sell = true) (hlabel : d.pick buy sell = some label) :
      Explains sides last p buy sell left d label
  /-- The bars ended, and there is no signal for the exit. -/
  | ended {side : Side} {since : ℕ} (hlast : last) (hp : p = .held side since)
      (hleft : left = none) (hlisted : ∀ row, ¬Listed sides p.side? buy.isSome sell.isSome row)
      (hlabel : side.opposite.pick buy sell = none) :
      Explains sides last p buy sell left side.opposite endOfDataLabel
  /-- The bars ended while two signals cancelled each other, of which one is for the exit. -/
  | contested {side : Side} {since : ℕ} {label : String} (hlast : last)
      (hp : p = .held side since) (hleft : left = none) (hsides : sides = .longShort)
      (hother : (side.pick buy sell).isSome = true)
      (hlabel : side.opposite.pick buy sell = some label) :
      Explains sides last p buy sell left side.opposite label

/-- The label of a flag: that of why the rule left, else that of the signal, else that of the
end of the bars. -/
def chosenLabel (left : Option (ExitCause Float)) (signal : Option String) : String :=
  (left.map ExitCause.label).getD (signal.getD endOfDataLabel)

section Explains

variable {last : Prop} {p : Position} {b c : Option String}
  {left : Option (ExitCause Float)} {d : Side}

/-- A flag of a transition. -/
theorem Explains.of_listed (h : Listed sides p.side? b.isSome c.isSome row) (hleft : left = none)
    (hflag : d.pick row.buy row.sell = true) :
    Explains sides last p b c left d (chosenLabel left (d.pick b c)) := by
  have hsome : (d.pick b c).isSome = true := by
    rw [← Side.pick_map Option.isSome]
    exact h.signal hflag
  obtain ⟨label, hlabel⟩ := Option.isSome_iff_exists.1 hsome
  rw [hleft, hlabel]
  exact .signal rfl h hflag hlabel

/-- A flag of the exit by which the rule leaves. -/
theorem Explains.of_left {side : Side} (hp : p.side? = some side) (hleft : left.isSome = true)
    (hflag : d.pick (TradeRow.exit side).buy (TradeRow.exit side).sell = true) :
    Explains sides last p b c left d (chosenLabel left (d.pick b c)) := by
  obtain ⟨cause, rfl⟩ := Option.isSome_iff_exists.1 hleft
  cases p with
  | flat => cases hp
  | held held since =>
    cases hp
    rw [eq_opposite_of_exit hflag]
    exact .left rfl rfl

/-- A flag of the exit on the last bar, where neither the signals nor the rule do anything: if
there is a signal for it, then there is one against it, too. -/
theorem Explains.of_idle {side : Side} {since : ℕ} (hlast : last) (hp : p = .held side since)
    (htakes : sides.takes side = true) (hleft : left = none)
    (h : ∀ row, ¬Listed sides p.side? b.isSome c.isSome row) :
    Explains sides last p b c left side.opposite
      (chosenLabel left (side.opposite.pick b c)) := by
  rw [hleft]
  rcases hlabel : side.opposite.pick b c with _ | label
  · exact .ended hlast hp rfl h hlabel
  · have hsignal : side.opposite.pick b.isSome c.isSome = true := by
      rw [Side.pick_map, hlabel]
      rfl
    rw [hp] at h
    obtain ⟨hsides, hother⟩ := contested_of_not_listed htakes h hsignal
    rw [Side.pick_map] at hother
    exact .contested hlast hp rfl hsides hother hlabel

/-- A flag of a row that is not settled. -/
theorem Explains.of_scheduled (hrow : Scheduled sides b.isSome c.isSome left.isSome p.side? row)
    (hlisted : ∀ other, Listed sides p.side? b.isSome c.isSome other → left.isSome = false)
    (hflag : d.pick row.buy row.sell = true) :
    Explains sides last p b c left d (chosenLabel left (d.pick b c)) := by
  generalize hheld : p.side? = held at hrow
  cases hrow with
  | listed h =>
    rw [← hheld] at h
    exact .of_listed h (Option.not_isSome_iff_eq_none.1 (Bool.eq_false_iff.1 (hlisted _ h))) hflag
  | left _ hfires => exact .of_left hheld hfires hflag
  | idle => cases d <;> cases hflag

/-- A flag of the last row, on which what was held is closed. -/
theorem Explains.of_closing (hlast : last) {bar : ℕ} (hstanding : p.Standing sides bar)
    (hrow : Scheduled sides b.isSome c.isSome left.isSome p.side? row)
    (hlisted : ∀ other, Listed sides p.side? b.isSome c.isSome other → left.isSome = false)
    (hflag : d.pick (closing p).buy (closing p).sell = true) :
    Explains sides last p b c left d (chosenLabel left (d.pick b c)) := by
  have hnone : left.isSome = false → left = none := fun h =>
    Option.not_isSome_iff_eq_none.1 (Bool.eq_false_iff.1 h)
  cases p with
  | flat => cases d <;> cases hflag
  | held side since =>
    obtain rfl := eq_opposite_of_exit hflag
    generalize hheld : (Position.held side since).side? = held at hrow
    cases hrow with
    | listed h =>
      cases hheld
      exact .of_listed h (hnone (hlisted _ h)) h.closes
    | left _ hfires => exact .of_left rfl hfires hflag
    | idle h hidle =>
      cases hheld
      rcases hidle with hflat | hfires
      · cases hflat
      · exact .of_idle hlast rfl hstanding.1 (hnone hfires) h

end Explains

end Reconciliation

/-! ### Runs -/

namespace Strategy

open Reconciliation

/-- The label that is written for a flag that is set. -/
theorem getElem?_reasons {fired : ExitOverlay.Memory Float} {signals : Signals}
    {flags : List Bool} {i : ℕ} {signal : Option String} (hsignal : signals[i]? = some signal)
    (hflag : flags[i]? = some true) :
    (reasons fired signals flags)[i]? = some (some (chosenLabel (fired.causeAt? i) signal)) := by
  rw [reasons, List.getElem?_mapIdx, hflag, Option.map_some, hsignal]
  rfl

/-- **Every label that is written explains its flag.** -/
theorem explains_reasons {sides : PositionType} {x : ExitOverlay Float} {buy sell : Signals}
    (hlength : sell.length = buy.length) {i : ℕ} {b c : Option String}
    (hbuy : buy[i]? = some b) (hsell : sell[i]? = some c) :
    let done := withExits sides x.rule .start buy.flags sell.flags
    let left := left? sides x (buy.flags.zip sell.flags) done.1 i
    ∃ p, Position.flat.replay? (events (done.1.take i)) = some p ∧ done.2.causeAt? i = left ∧
      ∀ d : Side, (done.1.map fun row => d.pick row.buy row.sell)[i]? = some true →
        ∃ label, (reasons done.2 (d.pick buy sell)
            (done.1.map fun row => d.pick row.buy row.sell))[i]? = some (some label) ∧
          Explains sides (i + 1 = buy.length) p b c left d label := by
  intro done left
  have hbar : (buy.flags.zip sell.flags)[i]? = some (b.isSome, c.isSome) :=
    List.getElem?_zip_eq_some.2 ⟨by rw [Indexed.getElem?_flags, hbuy]; rfl,
      by rw [Indexed.getElem?_flags, hsell]; rfl⟩
  have hcount : (buy.flags.zip sell.flags).length = buy.length := by
    rw [List.length_zip, Indexed.length_flags, Indexed.length_flags, hlength, Nat.min_self]
  have hi : i < buy.length := (List.getElem?_eq_some_iff.1 hbuy).1
  obtain ⟨p, row, hreplay, hstanding, hrow, hlisted, hget⟩ :=
    @exists_standing _ sides _ _ _ _ x.rule .start hbar
  have hcause : done.2.causeAt? i = left := causeAt?_walk hbar
  refine ⟨p, hreplay, hcause, fun d hflag => ?_⟩
  have hsignal : (d.pick buy sell)[i]? = some (d.pick b c) := by
    cases d
    · exact hbuy
    · exact hsell
  refine ⟨_, getElem?_reasons hsignal hflag, ?_⟩
  rw [hcause]
  rw [← isSome_left?] at hrow hlisted
  rw [List.getElem?_map, show done.1[i]? = _ from hget, Option.map_some, Option.some.injEq,
    hcount] at hflag
  -- The flag is that of the row itself, or on the last bar that of the row that closes.
  rcases Nat.lt_or_ge (i + 1) buy.length with hlt | hge
  · rw [if_pos hlt] at hflag
    exact .of_scheduled hrow hlisted hflag
  · rw [if_neg (Nat.not_lt_of_le hge)] at hflag
    exact .of_closing (Nat.le_antisymm hi hge) hstanding hrow hlisted hflag

/-- The flags that a run writes. -/
theorem pick_record_flags (t : BarTable) (rows : List TradeRow)
    (fired : ExitOverlay.Memory Float) (buy sell : Signals) (d : Side) :
    d.pick (record t rows fired buy sell).buy (record t rows fired buy sell).sell =
      rows.map fun row => d.pick row.buy row.sell := by
  cases d <;> rfl

/-- The labels that a run writes. -/
theorem pick_record_signals (t : BarTable) (rows : List TradeRow)
    (fired : ExitOverlay.Memory Float) (buy sell : Signals) (d : Side) :
    d.pick (record t rows fired buy sell).buySignals (record t rows fired buy sell).sellSignals =
      reasons fired (d.pick buy sell) (rows.map fun row => d.pick row.buy row.sell) := by
  cases d <;> rfl

/-- **Every flag of a run has the label of what set it.** On each bar, and given what signals
there are and what position the rows before the bar replay to, the label explains its flag: the
rule left, or a signal changed the position, or the bars ended. Only if two signals cancelled
each other on the last bar it is that of a signal which did not set the flag. -/
theorem run_explained {σ : Type} {source : SeriesSource (StateM σ)} {ticker : String}
    {bars : List (Bar Float)} {t : BarTable} (ht : BarTable.Reached source ticker bars t)
    (s : Strategy) (k : σ) {i : ℕ} (hi : i < t.size) :
    let buy := BarTable.evaluate source s.buyCondition t k
    let sell := BarTable.evaluate source s.sellCondition buy.1.2 buy.2
    let rows := (s.run source t k).1.1
    let u := (s.run source t k).1.2
    let left := left? s.positionType (s.exits (Bar.closes t.bars))
      (buy.1.1.flags.zip sell.1.1.flags) rows i
    ∃ b c p, buy.1.1[i]? = some b ∧ sell.1.1[i]? = some c ∧
      Position.flat.replay? (events (rows.take i)) = some p ∧
      ∀ d : Side, (d.pick u.buy u.sell)[i]? = some true →
        ∃ label, (d.pick u.buySignals u.sellSignals)[i]? = some (some label) ∧
          Explains s.positionType (i + 1 = t.size) p b c left d label := by
  intro buy sell rows u left
  obtain ⟨hbuy, -⟩ := BarTable.evaluate_spec source s.buyCondition t k
  obtain ⟨hsell, -⟩ := BarTable.evaluate_spec source s.sellCondition buy.1.2 buy.2
  have hbars : sell.1.2.bars = t.bars := hsell.bars_eq.trans hbuy.bars_eq
  have hlength : buy.1.1.length = t.size := ht.aligned.length_evaluate s.buyCondition k
  have hlength' : sell.1.1.length = buy.1.1.length :=
    ((ht.aligned.reads hbuy).length_evaluate s.sellCondition buy.2).trans
      (hbuy.size_eq.trans hlength.symm)
  have hi' : i < buy.1.1.length := hlength.symm ▸ hi
  have hget := List.getElem?_eq_getElem hi'
  have hget' := List.getElem?_eq_getElem (hlength'.symm ▸ hi')
  obtain ⟨p, hreplay, -, hexplains⟩ := @explains_reasons s.positionType
    (s.exits (Bar.closes t.bars)) _ _ hlength' _ _ _ hget hget'
  -- The rows and the columns are those of the signals that the two evaluations give.
  have hrun : (s.run source t k).1 =
      let done := withExits s.positionType (s.exits (Bar.closes t.bars)).rule .start
        buy.1.1.flags sell.1.1.flags
      (done.1, record sell.1.2 done.1 done.2 buy.1.1 sell.1.1) := by
    rw [run_state, ← hbars]
  have hrows : rows = _ := congrArg Prod.fst hrun
  have hu : u = _ := congrArg Prod.snd hrun
  rw [← hrows] at hreplay hexplains
  refine ⟨_, _, p, hget, hget', hreplay, fun d hflag => ?_⟩
  rw [hu, pick_record_flags, ← hrows] at hflag
  rw [hu, pick_record_signals, ← hrows, ← hlength]
  exact hexplains d hflag

/-- Two days of rising closes. -/
def rising : List (Bar Float) :=
  [⟨⟨2024, 1, 1, .refl true⟩, 101, 101, 101, 101, 1⟩,
    ⟨⟨2024, 1, 2, .refl true⟩, 110, 110, 110, 110, 1⟩]

theorem daily_rising : Bar.daily rising = rising := by
  rw [Bar.daily, Bar.sorted, List.mergeSort_of_pairwise]
  · rfl
  · decide

/-- A strategy for both sides that buys above one level and sells above another. -/
def twoLevels : Strategy where
  ticker := "AAPL"
  positionType := .longShort
  buyCondition := .comparison .above (.price "AAPL" .close) (.constant 100)
  sellCondition := .comparison .above (.price "AAPL" .close) (.constant 105)
  startDate := some ⟨2024, 1, 1, .refl true⟩
  endDate := some ⟨2024, 1, 2, .refl true⟩
  stopLoss := none
  takeProfit := none
  interval := .oneDay
  period := none
  initialCapital := 10000
  orderSize := .contracts 1
  tradeCommissions := none

/-- The strategy opens a position on the first of these days, and the label explains that. -/
theorem run_explained_twoLevels :
    let t := BarTable.ofBars "AAPL" rising
    let u := (twoLevels.run BarTable.ownSource t ()).1.2
    BarTable.Reached BarTable.ownSource "AAPL" rising t ∧ 0 < t.size ∧
      u.buy[0]? = some true ∧ ∃ label b c p left, u.buySignals[0]? = some (some label) ∧
        Explains .longShort (0 + 1 = t.size) p b c left .long label := by
  intro t u
  have hsize : 0 < t.size := by
    change 0 < (Bar.daily rising).length
    rw [daily_rising]
    decide
  have hflag : u.buy[0]? = some true := by
    change (twoLevels.run BarTable.ownSource (.ofBars "AAPL" rising) ()).1.2.buy[0]? = some true
    rw [BarTable.ofBars, daily_rising]
    decide +kernel
  have hfresh : BarTable.Reached BarTable.ownSource "AAPL" rising t := .fresh
  obtain ⟨b, c, p, -, -, -, hexplains⟩ := run_explained hfresh twoLevels () hsize
  obtain ⟨label, hlabel, hexplained⟩ := hexplains .long hflag
  exact ⟨.fresh, hsize, hflag, label, b, c, p, _, hlabel, hexplained⟩

/-- **An exit at the end of the bars with the label of a signal.** The position that is opened
on the first day is held when the second begins. There both signals are there, so the table
lists nothing, and the rule does not leave. What sets the flag for selling is the end of the
bars, but the label is another one. -/
theorem run_endOfData_mislabelled :
    let t := BarTable.ofBars "AAPL" rising
    let buy := BarTable.evaluate BarTable.ownSource twoLevels.buyCondition t ()
    let sell := BarTable.evaluate BarTable.ownSource twoLevels.sellCondition buy.1.2 buy.2
    let rows := (twoLevels.run BarTable.ownSource t ()).1.1
    let u := (twoLevels.run BarTable.ownSource t ()).1.2
    BarTable.Reached BarTable.ownSource "AAPL" rising t ∧ 1 + 1 = t.size ∧
      buy.1.1.flags = [true, true] ∧ sell.1.1.flags = [false, true] ∧
      Position.flat.replay? (events (rows.take 1)) = some (.held .long 0) ∧
      (∀ row, ¬Reconciliation.Listed twoLevels.positionType (some .long) true true row) ∧
      (left? twoLevels.positionType (twoLevels.exits (Bar.closes t.bars))
        (buy.1.1.flags.zip sell.1.1.flags) rows 1).isNone = true ∧
      u.sell[1]? = some true ∧ u.sellSignals[1]? ≠ some (some endOfDataLabel) := by
  have hlisted : ∀ row,
      ¬Reconciliation.Listed twoLevels.positionType (some .long) true true row := nofun
  refine ⟨.fresh, ?_, ?_, ?_, ?_, hlisted, ?_, ?_, ?_⟩
  all_goals
    rw [BarTable.ofBars, daily_rising]
    decide +kernel

end Strategy

end TradeSignals
