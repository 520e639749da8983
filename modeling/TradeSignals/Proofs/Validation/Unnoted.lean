import Mathlib.Data.List.Perm.Basic
import TradeSignals.Proofs.Strategy.Restated
import TradeSignals.Proofs.Validation.EveryArgument

/-!
# Checks without a note

Whatever validation repairs it notes, so where nothing is noted, nothing was repaired. A check
in several parts is without a note if all its parts are (`TradeSignals.Verdict.bind_eq_pure`),
and a binding without a problem uses every argument, in the order of the call
(`TradeSignals.Binding.bound_of_problems_eq_nil`).

What an argument comes to is a value of the tag of its parameter, and the argument restates what
is written for this value in canonical form, as long as the same is known of the calls in it
(`TradeSignals.Reading.stands_of_parameter`).
-/

namespace TradeSignals

/-! ### Verdicts -/

namespace Verdict

variable {ν μ ε φ α β : Type}

theorem eq_pure_iff {v : Verdict ν ε α} {a : α} :
    v = pure a ↔ v.notes = [] ∧ v.result = .ok a := by
  obtain ⟨notes, result⟩ := v
  exact Verdict.mk.injEq notes result [] (.ok a) ▸ Iff.rfl

/-- **A check in two parts is without a note** if both parts are. -/
theorem bind_eq_pure {v : Verdict ν ε α} {f : α → Verdict ν ε β} {b : β} :
    v >>= f = pure b ↔ ∃ a, v = pure a ∧ f a = pure b := by
  constructor
  · intro h
    obtain ⟨hnotes, hresult⟩ := eq_pure_iff.1 h
    obtain ⟨a, hv, hf⟩ := result_bind_eq_ok.1 hresult
    rw [notes_bind_of_ok hv, List.append_eq_nil_iff] at hnotes
    exact ⟨a, eq_pure_iff.2 ⟨hnotes.1, hv⟩, eq_pure_iff.2 ⟨hnotes.2, hf⟩⟩
  · rintro ⟨a, rfl, h⟩
    rwa [pure_bind]

theorem map_eq_pure {v : Verdict ν ε α} {g : α → β} {b : β} :
    g <$> v = pure b ↔ ∃ a, v = pure a ∧ g a = b := by
  rw [← bind_pure_comp, bind_eq_pure]
  refine exists_congr fun a => and_congr_right fun _ => ?_
  exact ⟨fun h => Except.ok.inj (eq_pure_iff.1 h).2, fun h => congrArg pure h⟩

theorem ofResult_eq_pure {r : Except ε α} {a : α} :
    (ofResult r : Verdict ν ε α) = pure a ↔ r = .ok a :=
  eq_pure_iff.trans (and_iff_right rfl)

theorem attempt_eq_pure {v : Verdict ν ε α} {r : Except ε α} :
    v.attempt = pure r ↔ v = ofResult r := by
  obtain ⟨notes, result⟩ := v
  rw [eq_pure_iff, attempt, ofResult, Verdict.mk.injEq, Except.ok.injEq]

theorem translate_eq_pure {v : Verdict ν ε α} {onNote : ν → μ} {onFault : ε → φ} {a : α} :
    v.translate onNote onFault = pure a ↔ v = pure a := by
  obtain ⟨notes, result⟩ := v
  rw [eq_pure_iff, eq_pure_iff, translate, List.map_eq_nil_iff]
  cases result with
  | error e => exact and_congr_right fun _ => ⟨fun h => (nomatch h), fun h => (nomatch h)⟩
  | ok b => exact and_congr_right fun _ => by rw [Except.mapError, Except.ok.injEq, Except.ok.injEq]

theorem noteAll_eq_pure {ns : List ν} {u : Unit} :
    (noteAll ns : Verdict ν ε Unit) = pure u ↔ ns = [] :=
  eq_pure_iff.trans (and_iff_left rfl)

theorem fail_ne_pure {e : ε} {a : α} : (fail e : Verdict ν ε α) ≠ pure a :=
  fun h => nomatch (eq_pure_iff.1 h).2

/-- What follows a note does not take it back. -/
theorem note_bind_ne_pure {n : ν} {f : Unit → Verdict ν ε β} {b : β} : note n >>= f ≠ pure b := by
  intro h
  obtain ⟨_, hnote, _⟩ := bind_eq_pure.1 h
  exact List.cons_ne_nil n [] (eq_pure_iff.1 hnote).1

end Verdict

open Verdict

/-! ### Binding -/

namespace Binding

variable {α : Type} {c : Constructor}

/-- **A binding without a problem** uses every argument, in the order of the call, each of
them for a parameter of its own. -/
theorem bound_of_problems_eq_nil {args : List α} {ks : List (String × α)}
    (h : (ofCall c args ks).problems = []) : args.length ≤ c.slots.length ∧
      names (ofCall c args ks).bound = (c.slots.map (·.name)).zip args ++ ks ∧
      ((ofCall c args ks).bound.map (·.1.name)).Nodup ∧
      ∀ p ∈ (ofCall c args ks).bound, p.1 ∈ c.slots := by
  obtain ⟨taken, left, hperm, htaken, -, hnames, hproblems⟩ := exists_taken c args ks
  rw [hproblems, List.append_eq_nil_iff, List.map_eq_nil_iff] at h
  obtain ⟨hsurplus, rfl⟩ := h
  -- No keyword argument is left, so all of them are taken.
  rw [List.append_nil] at hperm
  obtain rfl := htaken.eq_of_length hperm.length_eq
  exact ⟨List.drop_eq_nil_iff.1 (List.mapIdx_eq_nil_iff.1 hsurplus), hnames, bound_ofCall c args _⟩

/-- If moreover each parameter has an argument, what is bound can be put in the order of the
parameters. -/
theorem exists_perm_slots {bound : List (Slot × α)} (hnodup : (bound.map (·.1.name)).Nodup)
    (hslots : ∀ p ∈ bound, p.1 ∈ c.slots) (hall : ∀ slot ∈ c.slots, ∃ p ∈ bound, p.1 = slot) :
    ∃ given, bound.Perm given ∧ given.map (·.1) = c.slots := by
  have hperm : (bound.map (·.1)).Perm c.slots := by
    refine (List.perm_ext_iff_of_nodup ?_ ((nodup_slots c).of_map _)).2 fun slot => ?_
    · exact List.Nodup.of_map (·.name) (by rwa [List.map_map])
    · rw [List.mem_map]
      refine ⟨?_, hall slot⟩
      rintro ⟨p, hp, rfl⟩
      exact hslots p hp
  obtain ⟨given, hgiven, hbound⟩ :=
    (congrFun₂ (List.eq_map_comp_perm (Prod.fst : Slot × α → Slot)) c.slots bound).mpr hperm.symm
  exact ⟨given, hbound.symm, hgiven.symm⟩

end Binding

/-! ### Parameters -/

/-- The tag of the parameters that can have a value. -/
def Value.tag : Value → Tag
  | .int _ => .int
  | .float _ => .float
  | .bool _ => .bool
  | .ticker _ => .ticker
  | .date _ => .date
  | .positionType _ => .choice .positionType
  | .interval _ => .choice .interval
  | .period _ => .choice .period
  | .priceField _ => .choice .priceField
  | .stopKind _ => .choice .stopKind
  | .condition _ => .condition
  | .series _ => .series
  | .retracement _ => .retracement
  | .orderSize _ => .orderSize
  | .commission _ => .commission
  | .stopLoss _ => .stopLoss
  | .takeProfit _ => .takeProfit

/-- How a value is written in canonical form. A setting that is absent is not written. -/
def Value.expr? : Value → Option Expr
  | .int value => some (.int value)
  | .float value => some (.float value)
  | .bool value => some (.literal (.bool value))
  | .ticker value => some (.quoted value)
  | .date value => some (Strategy.dateExpr value)
  | .positionType value => some (Strategy.memberExpr .positionType value)
  | .interval value => some (Strategy.memberExpr .interval value)
  | .period value => some (Strategy.memberExpr .period value)
  | .priceField value => some (Strategy.memberExpr .priceField value)
  | .stopKind value => some (Strategy.memberExpr .stopKind value)
  | .condition value => some value.toExpr
  | .series value => some value.toExpr
  | .retracement value => some (.member Retracement.kindName (Choice.label value))
  | .orderSize value => some value.toExpr
  | .commission value => value.map Commission.toExpr
  | .stopLoss value => value.map StopLoss.toExpr
  | .takeProfit value => value.map TakeProfit.toExpr

/-- An expression restates what is written in canonical form, or it says that nothing is to be
written. -/
def Expr.Stands (ticker : String) (tag : Tag) (e : Expr) : Option Expr → Prop
  | some e' => Restated ticker tag e e'
  | none => e = .literal .none

/-- **A faithful reading**: what an expression comes to without a note, the expression
restates. -/
structure Reading.Faithful (ticker : String) (r : Reading) : Prop where
  /-- As a condition. -/
  condition : ∀ c, r.condition = pure c → Expr.Restated ticker .condition r.expr c.toExpr
  /-- As a series. -/
  series : ∀ s, r.series = pure s → Expr.Restated ticker .series r.expr s.toExpr
  /-- As an order size. -/
  orderSize : ∀ x, r.orderSize = pure x → Expr.Restated ticker .orderSize r.expr x.toExpr
  /-- As a commission or none. -/
  commission : ∀ x, r.commission = pure x →
    Expr.Stands ticker .commission r.expr (x.map Commission.toExpr)
  /-- As a stop loss or none. -/
  stopLoss : ∀ x, r.stopLoss = pure x →
    Expr.Stands ticker .stopLoss r.expr (x.map StopLoss.toExpr)
  /-- As a take profit or none. -/
  takeProfit : ∀ x, r.takeProfit = pure x →
    Expr.Stands ticker .takeProfit r.expr (x.map TakeProfit.toExpr)

namespace Plain

variable {ticker : String} {e : Expr}

theorem restated_of_int {v : Int64} (h : int e = .ok v) :
    Expr.Restated ticker .int e (.int v) := by
  unfold int at h
  split at h <;> cases h
  exact .literal _ _

theorem restated_of_float {x : Float} (h : float e = .ok x) :
    Expr.Restated ticker .float e (.float x) := by
  have hfinite : ∀ y, finite y = .ok x → y = x := by
    intro y hy
    rw [finite] at hy
    split at hy <;> cases hy
    rfl
  unfold float at h
  split at h
  · cases hfinite _ h
    exact .literal _ _
  · cases hfinite _ h
    exact .number _
  · cases h

theorem restated_of_bool {b : Bool} (h : bool e = .ok b) :
    Expr.Restated ticker .bool e (.literal (.bool b)) := by
  unfold bool at h
  split at h <;> cases h
  exact .literal _ _

theorem eq_quoted_of_ticker {t : String} (h : Plain.ticker e = .ok t) : e = .quoted t := by
  unfold Plain.ticker at h
  split at h
  · split at h <;> cases h
    rfl
  · cases h

theorem restated_of_date {today d : Date} (h : date today e = .ok d) :
    Expr.Restated ticker .date e (Strategy.dateExpr d) := by
  unfold date at h
  split at h
  · next text =>
    cases hread : Date.read text with
    | error fault =>
      rw [dateOf, hread] at h
      cases h
    | ok d' =>
      rw [dateOf, hread] at h
      change (if today < d' then _ else _) = Except.ok d at h
      split at h <;> cases h
      exact .date hread
  · cases h

theorem restated_of_choice {α : Type} [Choice α] {kind : ChoiceKind} {a : α} {tag : Tag}
    (h : choice kind e = .ok a) : Expr.Restated ticker tag e (Strategy.memberExpr kind a) := by
  unfold choice at h
  split at h
  · next k item =>
    split at h
    · next hkind =>
      split at h <;> cases h
      next hlabel =>
        cases hkind
        cases Choice.label_of_ofLabel? hlabel
        exact .member _ _ _
    · cases h
  · cases h

theorem ratio_of_retracementOf {x : Float} {level : Retracement}
    (h : retracementOf x = .ok level) : (level.ratio - x).abs < 1e-9 := by
  unfold retracementOf finite at h
  split at h <;> dsimp only [bind, Except.bind] at h
  · split at h <;> cases h
    next hratio =>
      rw [Retracement.ofRatio?] at hratio
      simpa using List.find?_some hratio
  · cases h

theorem restated_of_retracement {level : Retracement} (h : retracement e = .ok level) :
    Expr.Restated ticker .retracement e (.member Retracement.kindName (Choice.label level)) := by
  unfold retracement at h
  split at h
  · split at h
    · next hkind =>
      split at h <;> cases h
      next hlabel =>
        cases hkind
        cases Choice.label_of_ofLabel? hlabel
        exact .member _ _ _
    · cases h
  · exact .ratio (ratio_of_retracementOf h)
  · exact .wholeRatio (ratio_of_retracementOf h)
  · cases h

end Plain

namespace Reading

variable {cx : Context} {c : Constructor} {r : Reading} {v : Value}

/-- What a tag makes of an argument without a note is of that tag, and the argument stands for
it. -/
theorem stands_of_value (hr : r.Faithful cx.ticker) {tag : Tag} (h : r.value cx tag = pure v) :
    v.tag = tag ∧ Expr.Stands cx.ticker tag r.expr v.expr? := by
  cases tag with
  | int =>
    obtain ⟨a, ha, rfl⟩ := Except.map_eq_ok.1 (ofResult_eq_pure.1 h)
    exact ⟨rfl, Plain.restated_of_int ha⟩
  | float =>
    obtain ⟨a, ha, rfl⟩ := Except.map_eq_ok.1 (ofResult_eq_pure.1 h)
    exact ⟨rfl, Plain.restated_of_float ha⟩
  | bool =>
    obtain ⟨a, ha, rfl⟩ := Except.map_eq_ok.1 (ofResult_eq_pure.1 h)
    exact ⟨rfl, Plain.restated_of_bool ha⟩
  | ticker =>
    obtain ⟨a, ha, rfl⟩ := Except.map_eq_ok.1 (ofResult_eq_pure.1 h)
    rw [Plain.eq_quoted_of_ticker ha]
    exact ⟨rfl, .literal _ _⟩
  | date =>
    obtain ⟨a, ha, rfl⟩ := Except.map_eq_ok.1 (ofResult_eq_pure.1 h)
    exact ⟨rfl, Plain.restated_of_date ha⟩
  | choice kind =>
    cases kind <;> obtain ⟨a, ha, rfl⟩ := Except.map_eq_ok.1 (ofResult_eq_pure.1 h) <;>
      exact ⟨rfl, Plain.restated_of_choice ha⟩
  | retracement =>
    obtain ⟨a, ha, rfl⟩ := Except.map_eq_ok.1 (ofResult_eq_pure.1 h)
    exact ⟨rfl, Plain.restated_of_retracement ha⟩
  | condition =>
    obtain ⟨a, ha, rfl⟩ := map_eq_pure.1 h
    exact ⟨rfl, hr.condition a ha⟩
  | series =>
    obtain ⟨a, ha, rfl⟩ := map_eq_pure.1 h
    exact ⟨rfl, hr.series a ha⟩
  | orderSize =>
    obtain ⟨a, ha, rfl⟩ := map_eq_pure.1 h
    exact ⟨rfl, hr.orderSize a ha⟩
  | commission =>
    obtain ⟨a, ha, rfl⟩ := map_eq_pure.1 h
    exact ⟨rfl, hr.commission a ha⟩
  | stopLoss =>
    obtain ⟨a, ha, rfl⟩ := map_eq_pure.1 h
    exact ⟨rfl, hr.stopLoss a ha⟩
  | takeProfit =>
    obtain ⟨a, ha, rfl⟩ := map_eq_pure.1 h
    exact ⟨rfl, hr.takeProfit a ha⟩

/-- The range of a parameter changes nothing about its value. -/
theorem stands_of_parameter (hr : r.Faithful cx.ticker) {owner : Option Constructor} {slot : Slot}
    (h : r.parameter cx owner slot = pure v) :
    v.tag = slot.tag ∧ Expr.Stands cx.ticker slot.tag r.expr v.expr? := by
  obtain ⟨value, hvalue, h⟩ := bind_eq_pure.1 h
  split at h
  · exact absurd h fail_ne_pure
  · cases (eq_pure_iff.1 h).2
    exact stands_of_value hr hvalue

end Reading

end TradeSignals
