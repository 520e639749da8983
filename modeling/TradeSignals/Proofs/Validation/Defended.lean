import TradeSignals.Proofs.Validation.Builders
import TradeSignals.Validation.Trusted

/-!
# Branches that are never taken

Validation could be more careful than it is: it could look at what a builder reports, at whether a
strategy takes the value that one of its parameters came to, and at whether there is a strategy
where validation ends well. Here all of that is done, and each defect is reported in words that are
given from outside. Whatever these words are, nothing changes: a call, a whole expression, a
parameter of a strategy and a trusted text come to what they come to without looking. So no defect
is ever reported (`TradeSignals.Defended.builders_total`).

For calls this is so whatever the readings of their arguments are, so the induction over expressions
is only there to put calls inside each other.
-/

namespace TradeSignals

open Verdict Reading

/-- Checks go on alike if they do so after the value that is there. -/
theorem Verdict.bind_congr_of_result {ν ε α β : Type} {v : Verdict ν ε α}
    {f g : α → Verdict ν ε β} (h : ∀ a, v.result = .ok a → f a = g a) : v >>= f = v >>= g := by
  cases hv : v.result with
  | error e => rw [bind_of_error hv, bind_of_error hv]
  | ok a =>
    change v.andThen f = v.andThen g
    simp only [andThen, hv, h a hv]

/-! ### A strategy in the making -/

/-- The parts of a strategy that have been given so far. -/
structure Draft where
  /-- Which sides of the market are taken. -/
  positionType : Option PositionType
  /-- When to buy. -/
  buyCondition : Option Condition
  /-- When to sell. -/
  sellCondition : Option Condition
  /-- The first day. -/
  startDate : Option Date
  /-- The last day. -/
  endDate : Option Date
  /-- When to cut a loss. -/
  stopLoss : Option (StopLoss Float)
  /-- When to take a profit. -/
  takeProfit : Option (TakeProfit Float)
  /-- How much time a bar covers. -/
  interval : Option Interval
  /-- How far to look back. -/
  period : Option Period
  /-- How many dollars there are in the beginning. -/
  initialCapital : Option Float
  /-- How much to trade. -/
  orderSize : Option OrderSize
  /-- What a trade costs. -/
  tradeCommissions : Option Commission

/-- A draft with the value of one more parameter. The ticker is none of its parts. -/
def Draft.apply (draft : Draft) (field : Field) (value : Value) : Except Defect Draft :=
  match field, value with
  | .positionType, value => return { draft with positionType := some (← value.member field.key) }
  | .buyCondition, .condition c => return { draft with buyCondition := some c }
  | .sellCondition, .condition c => return { draft with sellCondition := some c }
  | .startDate, .date d => return { draft with startDate := some d }
  | .endDate, .date d => return { draft with endDate := some d }
  | .stopLoss, .stopLoss x => return { draft with stopLoss := x }
  | .takeProfit, .takeProfit x => return { draft with takeProfit := x }
  | .interval, value => return { draft with interval := some (← value.member field.key) }
  | .period, value => return { draft with period := some (← value.member field.key) }
  | .initialCapital, .float x => return { draft with initialCapital := some x }
  | .orderSize, .orderSize x => return { draft with orderSize := some x }
  | .tradeCommissions, .commission x => return { draft with tradeCommissions := x }
  | field, value => .error (.otherForm field.key value)

/-- **A draft takes every value of the form of its parameter.** -/
theorem Draft.apply_ok (draft : Draft) {field : Field} {v : Value} (hfield : field ≠ .ticker)
    (htag : v.tag = field.tag) : ∃ draft', draft.apply field v = .ok draft' := by
  cases field with
  | ticker => exact absurd rfl hfield
  | positionType =>
    cases v with
    | positionType a => cases a <;> exact ⟨_, rfl⟩
    | _ => cases htag
  | interval =>
    cases v with
    | interval a => cases a <;> exact ⟨_, rfl⟩
    | _ => cases htag
  | period =>
    cases v with
    | period a => cases a <;> exact ⟨_, rfl⟩
    | _ => cases htag
  | _ => cases v <;> first | exact ⟨_, rfl⟩ | cases htag

namespace Defended

/-! ### Calls -/

section Calls

variable (word : Defect → Fault) (cx : Context)

/-- What was built, or its defect in words. -/
def reported {α : Type} (built : Except Defect α) : Check α := .ofResult (built.mapError word)

/-- The values of the arguments of a call, if every parameter has one. -/
def values (c : Constructor) (args : List Reading) (keywords : List (String × Reading)) :
    Check Values := do
  let vs ← callValues cx c args keywords
  if withoutValue c vs = [] then pure vs else .fail (.unusable c (withoutValue c vs))

/-- A call as a condition. -/
def conditionOfCall (callee : String) (args : List Reading) (keywords : List (String × Reading)) :
    Check Condition := do
  let c ← resolve .condition callee
  if c.variadic then junction c args keywords
  else
    let vs ← values cx c args keywords
    reported word (Building.condition c vs)

/-- A call as a series. -/
def seriesOfCall (callee : String) (args : List Reading) (keywords : List (String × Reading)) :
    Check Series := do
  let c ← resolve .series callee
  if c.takesTicker then
    let ticker ← seriesTicker cx c (tickerArguments args keywords)
    let vs ← values cx c (args.drop 1) (keywords.filter fun k => !isTickerKey k)
    reported word (Building.series c ticker vs)
  else
    let vs ← values cx c args keywords
    reported word (Building.constant vs)

/-- The constructor of a call that is a setting of a category, with the values of all of its
parameters. -/
def flatCall (category : Category) (callee : String) (args : List Reading)
    (keywords : List (String × Reading)) : Check (Constructor × Values) :=
  match Constructor.ofNameIn? category callee with
  | none => .fail (.notSetting callee category)
  | some c =>
    let binding := Binding.ofCall c args keywords
    match binding.problems with
    | problem :: _ => .fail (.binding (problem.map (·.expr)))
    | [] =>
      if binding.missing c ≠ [] then .fail (.missing c (binding.missing c))
      else do
        let vs ← allValues cx c binding.bound
        return (c, vs)

/-- A call as a setting of a category. -/
def settingOfCall {α : Type} (category : Category)
    (build : Constructor → Values → Except Defect α) (callee : String) (args : List Reading)
    (keywords : List (String × Reading)) : Check α := do
  let call ← flatCall cx category callee args keywords
  reported word (build call.1 call.2)

/-- The reading of a call. -/
def ofCall (expr : Expr) (callee : String) (args : List Reading)
    (keywords : List (String × Reading)) : Reading where
  expr := expr
  condition := conditionOfCall word cx callee args keywords
  series := seriesOfCall word cx callee args keywords
  orderSize := settingOfCall word cx .orderSize Building.orderSize callee args keywords
  commission := settingOfCall word cx .commission Building.commission callee args keywords
  stopLoss := settingOfCall word cx .stopLoss Building.stopLoss callee args keywords
  takeProfit := settingOfCall word cx .takeProfit Building.takeProfit callee args keywords

mutual

/-- **The reading of an expression.** -/
def reading : Expr → Reading
  | .call callee args keywords =>
    ofCall word cx (.call callee args keywords) callee (readings args) (readingsByKey keywords)
  | e => ofOther e

/-- The readings of positional arguments. -/
def readings : List Expr → List Reading
  | [] => []
  | e :: rest => reading e :: readings rest

/-- The readings of keyword arguments. -/
def readingsByKey : List (String × Expr) → List (String × Reading)
  | [] => []
  | (key, e) :: rest => (key, reading e) :: readingsByKey rest

end

end Calls

/-! ### Nothing changes -/

section Unchanged

variable {word : Defect → Fault} {cx : Context} {c : Constructor} {vs : Values}
  {args : List Reading} {ks : List (String × Reading)} {α : Type}

/-- The values of a call are complete, once they are known to be there. -/
theorem complete_of_values (h : (values cx c args ks).result = .ok vs) : vs.Complete c := by
  obtain ⟨vs', hvs, h⟩ := result_bind_eq_ok.1 h
  split at h
  · next hall =>
    cases h
    obtain ⟨-, -, hvs⟩ := result_bind_eq_ok.1 hvs
    rw [usableValues_eq] at hvs
    exact Values.complete_found (Except.ok.inj hvs).symm hall
  · cases h

/-- The values of a setting are complete. -/
theorem complete_of_flatCall {category : Category} {callee : String}
    (h : (flatCall cx category callee args ks).result = .ok (c, vs)) :
    c.category = category ∧ vs.Complete c := by
  unfold flatCall at h
  split at h
  · cases h
  · next hname =>
    dsimp only at h
    split at h
    · cases h
    · split at h
      · cases h
      · next hmissing =>
        obtain ⟨vs, hvs, h⟩ := result_bind_eq_ok.1 h
        cases h
        refine ⟨of_decide_eq_true (Option.filter_eq_some_iff.1 hname).2, ?_⟩
        obtain ⟨hall, rfl⟩ := result_allValues_eq_ok.1 hvs
        refine Values.complete_found rfl (Values.withoutValue_eq_nil.2 fun slot hslot => ?_)
        -- No parameter is without an argument, and every argument has a value.
        rw [not_not, Binding.missing, List.filter_eq_nil_iff] at hmissing
        have hbinds := hmissing slot.name (List.mem_map_of_mem hslot)
        rw [Bool.not_eq_true, Bool.not_eq_false', Binding.binds, List.any_eq_true] at hbinds
        obtain ⟨p, hp, hname⟩ := hbinds
        obtain ⟨w, hw⟩ := Option.isSome_iff_exists.1 (hall p hp)
        obtain ⟨v, -, rfl⟩ := Option.map_eq_some_iff.1 hw
        have hkeys := (keys_found_sublist cx c (Binding.ofCall c args ks).bound).nodup
          (Binding.bound_ofCall c args ks).1
        refine ⟨v, (Dictionary.lookup_eq_some_iff_mem hkeys).2 (List.mem_filterMap.2 ⟨p, hp, ?_⟩)⟩
        rw [hw, beq_iff_eq.1 hname]

theorem reported_ok {built : Except Defect α} {a : α} (h : built = .ok a) :
    reported word built = pure a := by
  rw [h]
  rfl

/-- What is built from values is built from complete ones, or the call is refused in either
case. -/
theorem built_callValues_eq {build : Values → Except Defect α} {build? : Values → Option α}
    (hok : ∀ vs, vs.Complete c → ∃ a, build vs = .ok a ∧ build? vs = some a)
    (hall : ∀ vs a, build? vs = some a → ∀ slot ∈ c.slots, ∃ v, vs.lookup slot.name = some v) :
    (values cx c args ks >>= fun vs => reported word (build vs)) =
      callValues cx c args ks >>= fun vs => built c vs (build? vs) := by
  rw [values, bind_assoc]
  refine bind_congr_of_result fun vs hvs => ?_
  obtain ⟨-, -, hvs⟩ := result_bind_eq_ok.1 hvs
  rw [usableValues_eq] at hvs
  by_cases hwithout : withoutValue c vs = []
  · obtain ⟨a, ha, ha'⟩ :=
      hok vs (Values.complete_found (Except.ok.inj hvs).symm hwithout)
    rw [if_pos hwithout, pure_bind, reported_ok ha, ha']
    rfl
  · rw [if_neg hwithout]
    cases hbuild : build? vs with
    | none => rfl
    | some a => exact absurd (Values.withoutValue_eq_nil.2 (hall vs a hbuild)) hwithout

/-- A constructor is only found by its name if it builds what is wanted. -/
theorem category_of_resolve {wanted : Category} {name : String}
    (h : (resolve wanted name).result = .ok c) : c.category = wanted := by
  unfold resolve at h
  split at h
  · split at h
    · next hcategory =>
      cases h
      exact hcategory
    · cases h
  · cases h

theorem conditionOfCall_eq (callee : String) : conditionOfCall word cx callee args ks =
    Reading.conditionOfCall cx callee args ks := by
  refine bind_congr_of_result fun c hc => ?_
  have hcategory := category_of_resolve hc
  split
  · rfl
  · next hfixed =>
    refine built_callValues_eq (fun vs hvs => ?_) fun vs k hk => ?_
    · obtain ⟨k, hk, hk', -⟩ :=
        Building.condition_ok hvs hcategory (Bool.eq_false_iff.2 hfixed)
      exact ⟨k, hk, hk'⟩
    · obtain ⟨written, -, hspells⟩ := condition?_spells hk
      exact hspells.exists_lookup

theorem seriesOfCall_eq (callee : String) : seriesOfCall word cx callee args ks =
    Reading.seriesOfCall cx callee args ks := by
  refine bind_congr_of_result fun c hc => ?_
  have hcategory := category_of_resolve hc
  split
  · next hticker =>
    refine bind_congr fun ticker => built_callValues_eq (fun vs hvs => ?_) fun vs s hs => ?_
    · obtain ⟨s, hs, hs', -⟩ := Building.series_ok hvs hticker ticker
      exact ⟨s, hs, hs'⟩
    · obtain ⟨written, -, hspells⟩ := series?_spells hs
      exact hspells.exists_lookup
  · next hticker =>
    obtain rfl : c = .const := by
      revert hticker
      rw [Constructor.takesTicker, hcategory]
      cases c <;> simp
    refine built_callValues_eq (fun vs hvs => ?_) fun vs s hs => ?_
    · obtain ⟨s, hs, hs', -⟩ := Building.constant_ok hvs
      exact ⟨s, hs, hs'⟩
    · obtain ⟨n, hn, -⟩ := Option.map_eq_some_iff.1 hs
      obtain ⟨v, hv, -⟩ := Values.writes_int hn
      exact List.forall_mem_singleton.2 ⟨v, hv⟩

/-- A setting is built from the values of a call. -/
theorem settingOfCall_eq_bind (category : Category) (build? : Constructor → Values → Option α)
    (callee : String) : Reading.settingOfCall cx category build? callee args ks =
      flatCall cx category callee args ks >>= fun call =>
        match build? call.1 call.2 with
        | some a => pure a
        | none => .fail (.missing call.1 (withoutValue call.1 call.2)) := by
  unfold Reading.settingOfCall flatCall
  cases Constructor.ofNameIn? category callee with
  | none => rfl
  | some c =>
    dsimp only
    cases (Binding.ofCall c args ks).problems with
    | cons problem problems => rfl
    | nil =>
      dsimp only
      split
      · rfl
      · rw [bind_assoc]
        rfl

theorem settingOfCall_eq {category : Category} {build : Constructor → Values → Except Defect α}
    {build? : Constructor → Values → Option α}
    (hok : ∀ c vs, c.category = category → vs.Complete c →
      ∃ a, build c vs = .ok a ∧ build? c vs = some a) (callee : String) :
    settingOfCall word cx category build callee args ks =
      Reading.settingOfCall cx category build? callee args ks := by
  rw [settingOfCall_eq_bind]
  refine bind_congr_of_result fun call hcall => ?_
  obtain ⟨hcategory, hvs⟩ := complete_of_flatCall hcall
  obtain ⟨a, ha, ha'⟩ := hok call.1 call.2 hcategory hvs
  rw [reported_ok ha, ha']

/-- **The reading of a call**, whatever the readings of its arguments are. -/
theorem ofCall_eq (e : Expr) (callee : String) :
    ofCall word cx e callee args ks = Reading.ofCall cx e callee args ks := by
  rw [ofCall, Reading.ofCall, conditionOfCall_eq, seriesOfCall_eq,
    settingOfCall_eq fun _ _ h hvs => Building.orderSize_ok hvs h,
    settingOfCall_eq fun _ _ h hvs => Building.commission_ok hvs h,
    settingOfCall_eq fun _ _ h hvs => Building.stopLoss_ok hvs h,
    settingOfCall_eq fun _ _ h hvs => Building.takeProfit_ok hvs h]

/-- **Once a flat call has its values, the setting is there.** -/
theorem settingOfCall_total {category : Category} {build : Constructor → Values → Except Defect α}
    {build? : Constructor → Values → Option α}
    (hok : ∀ c vs, c.category = category → vs.Complete c →
      ∃ a, build c vs = .ok a ∧ build? c vs = some a) {callee : String}
    (h : (flatCall cx category callee args ks).result = .ok (c, vs)) : ∃ a, build c vs = .ok a ∧
      (Reading.settingOfCall cx category build? callee args ks).result = .ok a := by
  obtain ⟨hcategory, hvs⟩ := complete_of_flatCall h
  obtain ⟨a, ha, ha'⟩ := hok c vs hcategory hvs
  refine ⟨a, ha, ?_⟩
  rw [settingOfCall_eq_bind, result_bind_of_ok h, ha']
  rfl

theorem readings_eq_map (es : List Expr) : readings word cx es = es.map (reading word cx) := by
  induction es with
  | nil => rfl
  | cons e es ih => rw [readings, ih, List.map_cons]

theorem readingsByKey_eq_map (kes : List (String × Expr)) :
    readingsByKey word cx kes = kes.map fun ke => (ke.1, reading word cx ke.2) := by
  induction kes with
  | nil => rfl
  | cons ke kes ih => rw [readingsByKey, ih, List.map_cons]

/-- **The reading of an expression**, whatever words there are for defects. -/
theorem reading_eq (e : Expr) : reading word cx e = Reading.of cx e := by
  induction e using Expr.induct with
  | call callee ps ks hps hks =>
    have hks' : ∀ ke ∈ ks, (ke.1, reading word cx ke.2) = (ke.1, Reading.of cx ke.2) :=
      fun ke hke => congrArg (Prod.mk ke.1) (hks ke hke)
    rw [reading, readings_eq_map, readingsByKey_eq_map, ofCall_eq, of_call, List.map_congr_left hps,
      List.map_congr_left hks']
  | _ => rfl

end Unchanged

/-! ### Strategies -/

/-- What one parameter of a strategy comes to, if a draft takes it. -/
def checkField (word : Defect → Fault) (cx : Context) (defaults : Defaults) (draft : Draft)
    (field : Field) (e : Expr) : StrategyCheck (Except Fault Value) := do
  let check : Check Value := do
    let value ← (reading word cx e).parameter cx (some .strategy) field.slot
    reported word ((draft.apply field value).map fun _ => value)
  match ← (check.translate (.inside field) id).attempt.translate id (.invalid field) with
  | .ok value => pure (.ok value)
  | .error fault =>
    if Strategy.isCondition field then .fail (.invalid field fault)
    else do
      .note (.refused field fault (.of defaults cx.today field))
      pure (.error fault)

theorem checkField_eq (word : Defect → Fault) (cx : Context) (defaults : Defaults) (draft : Draft)
    {field : Field} (hfield : field ≠ .ticker) (e : Expr) :
    checkField word cx defaults draft field e = Strategy.checkField cx defaults field e := by
  have hcheck : (do
      let value ← (reading word cx e).parameter cx (some .strategy) field.slot
      reported word ((draft.apply field value).map fun _ => value)) =
      (Reading.of cx e).parameter cx (some .strategy) field.slot := by
    rw [reading_eq]
    refine Eq.trans (bind_congr_of_result fun v hv => ?_) (bind_pure _)
    obtain ⟨draft', hdraft⟩ := draft.apply_ok hfield (tag_of_parameter hv).1
    exact reported_ok (by rw [hdraft]; rfl)
  unfold checkField
  rw [hcheck]
  rfl

/-- The end of a validation, where it is said apart whether it ended well, what the canonical text
is and what the strategy is. -/
structure Ending where
  /-- Did it end well? -/
  ok : Bool
  /-- The canonical text, or nothing. -/
  sanitized : String
  /-- What was changed, and why it did not end well. -/
  changes : Changelog
  /-- The strategy, if there is one. -/
  strategy : Option Strategy

/-- The end of the validation of a text. -/
def Ending.of (source : String) (defaults : Defaults) (today : Date) : Ending :=
  let v := Strategy.check source defaults today
  let repaired := Changelog.ofMessages (v.notes.map fun r => (r.key, r.message))
  match v.result with
  | .ok strategy => ⟨true, strategy.text, repaired, some strategy⟩
  | .error rejection => ⟨false, "", repaired.record rejection.key rejection.message, none⟩

/-- All of it can be told from the strategy and the changes. -/
theorem Ending.of_eq (source : String) (defaults : Defaults) (today : Date) :
    Ending.of source defaults today =
      ⟨(validate source defaults today).ok, (validate source defaults today).sanitized,
        (validate source defaults today).changes, (validate source defaults today).strategy⟩ := by
  rw [validate.eq_def, Ending.of, Outcome.ofCheck]
  cases (Strategy.check source defaults today).result <;> rfl

/-- **Where validation ends well**, there is a strategy. -/
theorem Ending.strategy_of_ok {source : String} {defaults : Defaults} {today : Date}
    (h : (Ending.of source defaults today).ok = true) :
    ∃ s, (Ending.of source defaults today).strategy = some s := by
  rw [of_eq] at h ⊢
  exact Option.isSome_iff_exists.1 h

/-- The strategy of a trusted text, if validation ends well and there is one. -/
def ofTrusted (missing : Failure) (text : String) (today : Date) : Except Failure Strategy :=
  let ending := Ending.of text .standard today
  if ending.ok then
    if ending.changes.isEmpty then
      match ending.strategy with
      | some strategy => .ok strategy
      | none => .error missing
    else .error (.untrusted ending.changes.keys)
  else .error (.rejected ending.changes)

theorem ofTrusted_eq (missing : Failure) (text : String) (today : Date) :
    ofTrusted missing text today = Strategy.ofTrusted text today := by
  unfold ofTrusted Strategy.ofTrusted
  rw [Ending.of_eq]
  generalize validate text .standard today = outcome
  obtain ⟨changes, _ | strategy⟩ := outcome <;> rfl

/-! ### The whole -/

/-- **Vocabulary and builders agree.** From the values of a call, once there is one for every
parameter, conditions and series are built that go by the name of the call; a flat call that has
its values is the setting it stands for; a strategy takes what its parameters come to; and there is
a strategy where validation ends well. So whatever a defect would be called, it is never reported:
expressions, parameters of a strategy and trusted texts come to what they come to without looking
for one. -/
theorem builders_total (word : Defect → Fault) (cx : Context) (args : List Reading)
    (ks : List (String × Reading)) :
    (∀ c vs, c.category = .condition → c.variadic = false →
      (values cx c args ks).result = .ok vs →
        ∃ k, Building.condition c vs = .ok k ∧ k.name = c.name) ∧
    (∀ c ticker vs, c.takesTicker = true → (values cx c args ks).result = .ok vs →
      ∃ s, Building.series c ticker vs = .ok s ∧ s.name = c.name) ∧
    (∀ vs, (values cx .const args ks).result = .ok vs →
      ∃ s, Building.constant vs = .ok s ∧ s.name = Constructor.const.name) ∧
    (∀ callee c vs,
      ((flatCall cx .orderSize callee args ks).result = .ok (c, vs) →
        ∃ x, Building.orderSize c vs = .ok x ∧
          (Reading.settingOfCall cx .orderSize orderSize? callee args ks).result = .ok x) ∧
      ((flatCall cx .commission callee args ks).result = .ok (c, vs) →
        ∃ x, Building.commission c vs = .ok x ∧
          (Reading.settingOfCall cx .commission commission? callee args ks).result = .ok x) ∧
      ((flatCall cx .stopLoss callee args ks).result = .ok (c, vs) →
        ∃ x, Building.stopLoss c vs = .ok x ∧
          (Reading.settingOfCall cx .stopLoss stopLoss? callee args ks).result = .ok x) ∧
      ((flatCall cx .takeProfit callee args ks).result = .ok (c, vs) →
        ∃ x, Building.takeProfit c vs = .ok x ∧
          (Reading.settingOfCall cx .takeProfit takeProfit? callee args ks).result = .ok x)) ∧
    (∀ (r : Reading) (field : Field) (v : Value) (draft : Draft), field ≠ .ticker →
      (r.parameter cx (some .strategy) field.slot).result = .ok v →
        ∃ draft', draft.apply field v = .ok draft') ∧
    (∀ source defaults today, (Ending.of source defaults today).ok = true →
      ∃ s, (Ending.of source defaults today).strategy = some s) ∧
    (∀ e, reading word cx e = Reading.of cx e) ∧
    (∀ defaults draft field e, field ≠ .ticker →
      checkField word cx defaults draft field e = Strategy.checkField cx defaults field e) ∧
    ∀ missing text today, ofTrusted missing text today = Strategy.ofTrusted text today := by
  refine ⟨fun c vs hcategory hfixed h => ?_, fun c ticker vs hticker h => ?_, fun vs h => ?_,
    fun callee c vs => ⟨?_, ?_, ?_, ?_⟩, fun r field v draft hfield h => ?_,
    fun _ _ _ h => Ending.strategy_of_ok h, reading_eq,
    fun defaults draft field e hfield => checkField_eq word cx defaults draft hfield e,
    ofTrusted_eq⟩
  · obtain ⟨k, hk, -, hname⟩ := Building.condition_ok (complete_of_values h) hcategory hfixed
    exact ⟨k, hk, hname⟩
  · obtain ⟨s, hs, -, hname⟩ := Building.series_ok (complete_of_values h) hticker ticker
    exact ⟨s, hs, hname⟩
  · obtain ⟨s, hs, -, hname⟩ := Building.constant_ok (complete_of_values h)
    exact ⟨s, hs, hname⟩
  · exact settingOfCall_total fun _ _ hc hvs => Building.orderSize_ok hvs hc
  · exact settingOfCall_total fun _ _ hc hvs => Building.commission_ok hvs hc
  · exact settingOfCall_total fun _ _ hc hvs => Building.stopLoss_ok hvs hc
  · exact settingOfCall_total fun _ _ hc hvs => Building.takeProfit_ok hvs hc
  · exact draft.apply_ok hfield (tag_of_parameter h).1

/-- A series whose length is given by keyword. -/
theorem builders_total_sma :
    let cx : Context := ⟨"AAPL", ⟨2024, 2, 29, by decide⟩⟩
    (values cx .sma [] [("length", Reading.of cx (.int 20))]).result =
        .ok [("length", .int 20)] ∧
      ∃ s, Building.series .sma "AAPL" [("length", .int 20)] = .ok s ∧ s.name = "SMA" := by
  intro cx
  have h : (values cx .sma [] [("length", Reading.of cx (.int 20))]).result =
      .ok [("length", .int 20)] := rfl
  exact ⟨h, (builders_total (fun _ => .notFinite 0) cx _ _).2.1 .sma "AAPL" _ rfl h⟩

end Defended

end TradeSignals
