import TradeSignals.Proofs.Validation.Exact
import TradeSignals.Proofs.Validation.Refilled
import TradeSignals.Proofs.Validation.Sides

/-!
# Validation with a changelog at hand

A reading collects notes, and they are recorded when all is done. Here each note is recorded as
soon as it is made: the parts of an expression are handed the changelog as it stands, one after the
other, and each of them hands it on with what it has recorded for its side of the strategy. Such a
step could look into the changelog before it decides on anything.

Both come to the same (`TradeSignals.Recorded.of_eq`): to take a step is to check, and to record all
notes of the check in their order. This carries over from the parts to the whole, because recording
the notes of two checks, one after the other, is recording the notes of both; each function below is
that of the reading, with steps in place of checks.
-/

namespace TradeSignals

open Reading

/-! ### Steps -/

/-- A step of a validation with the changelog at hand, which is handed on after a fault, too. -/
abbrev Recording (α : Type) := ExceptT Fault (StateM Changelog) α

/-- Records a note for a side of the strategy. -/
def Recording.note (side : String) (n : Note) : Recording Unit :=
  modify fun log => log.record (n.key side) n.message

namespace Check

variable {α β : Type} {side : String}

/-- A check as a step: all its notes are recorded. -/
def step (side : String) (v : Check α) : Recording α :=
  ExceptT.mk fun log => v.recordedIn log side

theorem step_fail (fault : Fault) : step (α := α) side (.fail fault) = throw fault := rfl

theorem step_note (n : Note) : step side (.note n) = Recording.note side n := rfl

theorem step_ofResult (r : Except Fault α) :
    step side (.ofResult r) = MonadExcept.ofExcept r := by
  cases r <;> rfl

/-- **Step after step.** The notes of the second check come after those of the first. -/
theorem step_bind (v : Check α) (f : α → Check β) :
    step side (v >>= f) = step side v >>= fun a => step side (f a) := by
  obtain ⟨notes, fault | a⟩ := v
  · rfl
  · have hmap : ∀ log : Changelog,
        log.recordAll ((notes ++ (f a).notes).map fun n => (n.key side, n.message)) =
          (log.recordAll (notes.map fun n => (n.key side, n.message))).recordAll
            ((f a).notes.map fun n => (n.key side, n.message)) := fun log => by
      rw [List.map_append, Changelog.recordAll_append]
    exact funext fun log => congrArg (Prod.mk (f a).result) (hmap log)

theorem step_map (f : α → β) (v : Check α) : step side (f <$> v) = f <$> step side v := by
  rw [map_eq_pure_bind, step_bind, map_eq_pure_bind]
  rfl

theorem step_noteAll {γ : Type} (f : γ → Note) (cs : List γ) :
    step side (.noteAll (cs.map f)) = forM cs fun c => Recording.note side (f c) := by
  induction cs with
  | nil => rfl
  | cons c cs ih =>
    have hcons : (.noteAll ((c :: cs).map f) : Check Unit) =
        .note (f c) >>= fun _ => .noteAll (cs.map f) := rfl
    rw [hcons, step_bind, step_note, ih, List.forM_cons]

theorem step_attempt (v : Check α) : step side v.attempt = ExceptT.lift (step side v).run := rfl

/-- Putting a fault into other words does not change what is recorded. -/
theorem step_translate (onFault : Fault → Fault) (v : Check α) :
    step side (v.translate id onFault) = (step side v).adapt onFault := by
  obtain ⟨notes, result⟩ := v
  have hid : (Verdict.translate id onFault ⟨notes, result⟩ : Check α) =
      ⟨notes, result.mapError onFault⟩ := congrArg (Verdict.mk · _) (List.map_id notes)
  rw [hid]
  cases result <;> rfl

end Check

/-! ### Expressions -/

/-- What an expression comes to, with the changelog at hand, as each of the things that a call can
build. -/
structure Recorded where
  /-- The expression itself. -/
  expr : Expr
  /-- As a condition. -/
  condition : Recording Condition
  /-- As a series. -/
  series : Recording Series
  /-- As an order size. -/
  orderSize : Recording OrderSize
  /-- As a commission or none. -/
  commission : Recording (Option Commission)
  /-- As a stop loss or none. -/
  stopLoss : Recording (Option (StopLoss Float))
  /-- As a take profit or none. -/
  takeProfit : Recording (Option (TakeProfit Float))

namespace Recorded

/-- What a parameter with a tag makes of an argument. -/
def value (cx : Context) (tag : Tag) (r : Recorded) : Recording Value :=
  match tag with
  | .int => ofExcept (Value.int <$> Plain.int r.expr)
  | .float => ofExcept (Value.float <$> Plain.float r.expr)
  | .bool => ofExcept (Value.bool <$> Plain.bool r.expr)
  | .ticker => ofExcept (Value.ticker <$> Plain.ticker r.expr)
  | .date => ofExcept (Value.date <$> Plain.date cx.today r.expr)
  | .choice kind => ofExcept (Plain.choiceValue kind r.expr)
  | .condition => Value.condition <$> r.condition
  | .series => Value.series <$> r.series
  | .retracement => ofExcept (Value.retracement <$> Plain.retracement r.expr)
  | .orderSize => Value.orderSize <$> r.orderSize
  | .commission => Value.commission <$> r.commission
  | .stopLoss => Value.stopLoss <$> r.stopLoss
  | .takeProfit => Value.takeProfit <$> r.takeProfit

/-- The value of a parameter. -/
def parameter (cx : Context) (owner : Option Constructor) (slot : Slot) (r : Recorded) :
    Recording Value := do
  let value ← r.value cx slot.tag
  match value.outOfRange? owner slot.name with
  | some fault => throw fault
  | none => pure value

/-- The values of arguments that have one; the faults of the others are recorded. -/
def usableValues (cx : Context) (side : String) (c : Constructor) :
    List (Slot × Recorded) → Recording Values
  | [] => pure []
  | (slot, r) :: rest => do
    match ← ExceptT.lift (r.parameter cx (some c) slot).run with
    | .ok value => return (slot.name, value) :: (← usableValues cx side c rest)
    | .error fault =>
      .note side ⟨c, .refused slot.name fault⟩
      usableValues cx side c rest

/-- The values of the arguments of a call. -/
def callValues (cx : Context) (side : String) (c : Constructor) (args : List Recorded)
    (keywords : List (String × Recorded)) : Recording Values := do
  let binding := Binding.ofCall c args keywords
  forM binding.problems fun p => .note side ⟨c, .binding (p.map (·.expr))⟩
  usableValues cx side c binding.bound

/-- What was built from values, if all of them were there. -/
def built {α : Type} (c : Constructor) (vs : Values) (result : Option α) : Recording α :=
  match result with
  | some a => pure a
  | none => throw (.unusable c (withoutValue c vs))

/-- The constructor with a name, which is to build something of a category. -/
def resolve (wanted : Category) (name : String) : Recording Constructor :=
  match Constructor.ofName? name with
  | some c =>
    if c.category = wanted then pure c else throw (.otherCategory name c.category wanted)
  | none => throw (.unknownConstructor name wanted)

/-- The conditions of a junction that can be read; the faults of the others are recorded. -/
def usableConditions (side : String) (c : Constructor) (index : Nat) :
    List Recorded → Recording (List Condition)
  | [] => pure []
  | r :: rest => do
    match ← ExceptT.lift r.condition.run with
    | .ok condition => return condition :: (← usableConditions side c (index + 1) rest)
    | .error fault =>
      .note side ⟨c, .dropped index fault⟩
      usableConditions side c (index + 1) rest

/-- A junction of conditions. -/
def junction (side : String) (c : Constructor) (args : List Recorded)
    (keywords : List (String × Recorded)) : Recording Condition := do
  forM keywords fun k => .note side ⟨c, .ignoredKeyword k.1⟩
  match ← usableConditions side c 0 args with
  | [] => throw (.noConditions c)
  | conditions => pure (if c = .and then .all conditions else .any conditions)

/-- A call as a condition. -/
def conditionOfCall (cx : Context) (side callee : String) (args : List Recorded)
    (keywords : List (String × Recorded)) : Recording Condition := do
  let c ← resolve .condition callee
  if c.variadic then junction side c args keywords
  else
    let vs ← callValues cx side c args keywords
    built c vs (condition? c vs)

/-- The ticker of a series, from the arguments that give it. -/
def seriesTicker (cx : Context) (side : String) (c : Constructor) (given : List Recorded) :
    Recording String := do
  forM given.tail fun _ => .note side ⟨c, .secondTicker⟩
  match given with
  | [] => pure cx.ticker
  | r :: _ =>
    match Plain.ticker r.expr with
    | .ok ticker => pure ticker
    | .error fault =>
      .note side ⟨c, .replacedTicker fault cx.ticker⟩
      pure cx.ticker

/-- A call as a series. -/
def seriesOfCall (cx : Context) (side callee : String) (args : List Recorded)
    (keywords : List (String × Recorded)) : Recording Series := do
  let c ← resolve .series callee
  if c.takesTicker then
    let ticker ← seriesTicker cx side c (args.take 1 ++ (keywords.filter isTickerKey).map (·.2))
    let vs ← callValues cx side c (args.drop 1) (keywords.filter fun k => !isTickerKey k)
    built c vs (series? c ticker vs)
  else
    let vs ← callValues cx side c args keywords
    built c vs ((vs.int? "value").map .constant)

/-- The values of all arguments of a setting; the first fault ends it. -/
def allValues (cx : Context) (c : Constructor) : List (Slot × Recorded) → Recording Values
  | [] => pure []
  | (slot, r) :: rest => do
    let value ← (r.parameter cx (some c) slot).adapt (.within c slot.name)
    return (slot.name, value) :: (← allValues cx c rest)

/-- A call as a setting of a category. -/
def settingOfCall {α : Type} (cx : Context) (category : Category)
    (build? : Constructor → Values → Option α) (callee : String) (args : List Recorded)
    (keywords : List (String × Recorded)) : Recording α :=
  match Constructor.ofNameIn? category callee with
  | none => throw (.notSetting callee category)
  | some c =>
    let binding := Binding.ofCall c args keywords
    match binding.problems with
    | problem :: _ => throw (.binding (problem.map (·.expr)))
    | [] =>
      if binding.missing c ≠ [] then throw (.missing c (binding.missing c))
      else do
        let vs ← allValues cx c binding.bound
        match build? c vs with
        | some a => pure a
        | none => throw (.missing c (withoutValue c vs))

/-- A call, from what its arguments come to. -/
def ofCall (cx : Context) (side : String) (expr : Expr) (callee : String) (args : List Recorded)
    (keywords : List (String × Recorded)) : Recorded where
  expr := expr
  condition := conditionOfCall cx side callee args keywords
  series := seriesOfCall cx side callee args keywords
  orderSize := settingOfCall cx .orderSize orderSize? callee args keywords
  commission := settingOfCall cx .commission commission? callee args keywords
  stopLoss := settingOfCall cx .stopLoss stopLoss? callee args keywords
  takeProfit := settingOfCall cx .takeProfit takeProfit? callee args keywords

/-- A setting that is absent if `None` stands for it. -/
def absentOr {α : Type} (category : Category) (e : Expr) : Recording (Option α) :=
  if e = .literal .none then pure none else throw (.expected (.setting category) e)

/-- An expression that is not a call. -/
def ofOther (e : Expr) : Recorded where
  expr := e
  condition := throw (.expected (.term .condition) e)
  series := throw (.expected (.term .series) e)
  orderSize := throw (.expected (.setting .orderSize) e)
  commission := absentOr .commission e
  stopLoss := absentOr .stopLoss e
  takeProfit := absentOr .takeProfit e

mutual

/-- **What an expression comes to, with the changelog at hand.** -/
def of (cx : Context) (side : String) : Expr → Recorded
  | .call callee args keywords =>
    ofCall cx side (.call callee args keywords) callee (ofAll cx side args)
      (ofKeywords cx side keywords)
  | e => ofOther e

/-- What positional arguments come to. -/
def ofAll (cx : Context) (side : String) : List Expr → List Recorded
  | [] => []
  | e :: rest => of cx side e :: ofAll cx side rest

/-- What keyword arguments come to. -/
def ofKeywords (cx : Context) (side : String) : List (String × Expr) → List (String × Recorded)
  | [] => []
  | (key, e) :: rest => (key, of cx side e) :: ofKeywords cx side rest

end

end Recorded

/-! ### Checks as steps -/

/-- A reading with its checks as steps. -/
def Reading.recorded (side : String) (r : Reading) : Recorded where
  expr := r.expr
  condition := r.condition.step side
  series := r.series.step side
  orderSize := r.orderSize.step side
  commission := r.commission.step side
  stopLoss := r.stopLoss.step side
  takeProfit := r.takeProfit.step side

namespace Recorded

open Check

variable {cx : Context} {side : String}

theorem value_recorded (tag : Tag) (r : Reading) :
    (r.recorded side).value cx tag = (r.value cx tag).step side := by
  cases tag with
  | condition | series | orderSize | commission | stopLoss | takeProfit =>
    exact (step_map _ _).symm
  | _ => exact (step_ofResult _).symm

theorem parameter_recorded (owner : Option Constructor) (slot : Slot) (r : Reading) :
    (r.recorded side).parameter cx owner slot = (r.parameter cx owner slot).step side := by
  rw [parameter, Reading.parameter, value_recorded, step_bind]
  refine congrArg _ (funext fun v => ?_)
  cases v.outOfRange? owner slot.name <;> rfl

theorem usableValues_recorded (c : Constructor) (bound : List (Slot × Reading)) :
    usableValues cx side c (bound.map fun p => (p.1, p.2.recorded side)) =
      (Reading.usableValues cx c bound).step side := by
  induction bound with
  | nil => rfl
  | cons p rest ih =>
    obtain ⟨slot, r⟩ := p
    rw [List.map_cons, usableValues, Reading.usableValues, parameter_recorded, step_bind,
      step_attempt]
    refine congrArg _ (funext fun found => ?_)
    cases found with
    | ok v => rw [ih, step_bind]; rfl
    | error fault => rw [ih, step_bind]; rfl

/-- Arguments are bound alike, whether they are checks or steps. -/
theorem ofCall_recorded (c : Constructor) (args : List Reading) (ks : List (String × Reading)) :
    Binding.ofCall c (args.map (Reading.recorded side)) (ks.map fun k => (k.1, k.2.recorded side)) =
      (Binding.ofCall c args ks).map (Reading.recorded side) :=
  Binding.ofCall_map _ c args ks

theorem expr_recorded (side : String) (problem : BindingProblem Reading) :
    (problem.map (Reading.recorded side)).map (·.expr) = problem.map (·.expr) := by
  cases problem <;> rfl

theorem callValues_recorded (c : Constructor) (args : List Reading)
    (ks : List (String × Reading)) :
    callValues cx side c (args.map (Reading.recorded side))
        (ks.map fun k => (k.1, k.2.recorded side)) =
      (Reading.callValues cx c args ks).step side := by
  rw [callValues, Reading.callValues, ofCall_recorded]
  dsimp only [Binding.map]
  rw [step_bind, step_noteAll, usableValues_recorded, List.forM_map]
  simp only [expr_recorded]

theorem resolve_recorded (wanted : Category) (name : String) :
    resolve wanted name = (Reading.resolve wanted name).step side := by
  rw [resolve, Reading.resolve]
  rcases Constructor.ofName? name with _ | c
  · rfl
  · dsimp only
    split <;> rfl

theorem built_recorded {α : Type} (c : Constructor) (vs : Values) (result : Option α) :
    built c vs result = (Reading.built c vs result).step side := by
  cases result <;> rfl

theorem usableConditions_recorded (c : Constructor) (index : ℕ) (args : List Reading) :
    usableConditions side c index (args.map (Reading.recorded side)) =
      (Reading.usableConditions c index args).step side := by
  induction args generalizing index with
  | nil => rfl
  | cons r rest ih =>
    rw [List.map_cons, usableConditions, Reading.usableConditions, step_bind, step_attempt]
    refine congrArg _ (funext fun found => ?_)
    cases found with
    | ok condition => rw [ih, step_bind]; rfl
    | error fault => rw [ih, step_bind]; rfl

theorem junction_recorded (c : Constructor) (args : List Reading) (ks : List (String × Reading)) :
    junction side c (args.map (Reading.recorded side)) (ks.map fun k => (k.1, k.2.recorded side)) =
      (Reading.junction c args ks).step side := by
  rw [junction, Reading.junction, step_bind, step_noteAll, usableConditions_recorded,
    List.forM_map]
  refine congrArg _ (funext fun _ => ?_)
  rw [step_bind]
  refine congrArg _ (funext fun conditions => ?_)
  cases conditions <;> rfl

theorem conditionOfCall_recorded (callee : String) (args : List Reading)
    (ks : List (String × Reading)) :
    conditionOfCall cx side callee (args.map (Reading.recorded side))
        (ks.map fun k => (k.1, k.2.recorded side)) =
      (Reading.conditionOfCall cx callee args ks).step side := by
  rw [conditionOfCall, Reading.conditionOfCall, step_bind, resolve_recorded]
  refine congrArg _ (funext fun c => ?_)
  rw [junction_recorded, callValues_recorded]
  split
  · rfl
  · rw [step_bind]
    exact congrArg _ (funext fun vs => built_recorded c vs _)

theorem seriesTicker_recorded (c : Constructor) (given : List Reading) :
    seriesTicker cx side c (given.map (Reading.recorded side)) =
      (Reading.seriesTicker cx c given).step side := by
  rw [seriesTicker.eq_def, Reading.seriesTicker.eq_def, step_bind, step_noteAll, ← List.map_tail,
    List.forM_map]
  refine congrArg _ (funext fun _ => ?_)
  cases given with
  | nil => rfl
  | cons r rest =>
    dsimp only [List.map, Reading.recorded]
    cases Plain.ticker r.expr <;> rfl

theorem seriesOfCall_recorded (callee : String) (args : List Reading)
    (ks : List (String × Reading)) :
    seriesOfCall cx side callee (args.map (Reading.recorded side))
        (ks.map fun k => (k.1, k.2.recorded side)) =
      (Reading.seriesOfCall cx callee args ks).step side := by
  rw [seriesOfCall, Reading.seriesOfCall, step_bind, resolve_recorded]
  refine congrArg _ (funext fun c => ?_)
  have hgiven : (args.map (Reading.recorded side)).take 1 ++
      ((ks.map fun k => (k.1, k.2.recorded side)).filter isTickerKey).map (·.2) =
        (tickerArguments args ks).map (Reading.recorded side) := by
    rw [tickerArguments, List.map_append, List.map_take, List.filter_map, List.map_map,
      List.map_map]
    rfl
  have hrest : ((ks.map fun k => (k.1, k.2.recorded side)).filter fun k => !isTickerKey k) =
      (ks.filter fun k => !isTickerKey k).map fun k => (k.1, k.2.recorded side) :=
    List.filter_map
  rw [hgiven, seriesTicker_recorded, hrest, ← List.map_drop]
  split
  · rw [step_bind]
    refine congrArg _ (funext fun ticker => ?_)
    rw [callValues_recorded, step_bind]
    exact congrArg _ (funext fun vs => built_recorded c vs _)
  · rw [callValues_recorded, step_bind]
    exact congrArg _ (funext fun vs => built_recorded c vs _)

theorem allValues_recorded (c : Constructor) (bound : List (Slot × Reading)) :
    allValues cx c (bound.map fun p => (p.1, p.2.recorded side)) =
      (Reading.allValues cx c bound).step side := by
  induction bound with
  | nil => rfl
  | cons p rest ih =>
    obtain ⟨slot, r⟩ := p
    rw [List.map_cons, allValues, Reading.allValues, parameter_recorded, step_bind,
      step_translate, ih]
    refine congrArg _ (funext fun v => ?_)
    rw [step_bind]
    rfl

theorem settingOfCall_recorded {α : Type} (category : Category)
    (build? : Constructor → Values → Option α) (callee : String) (args : List Reading)
    (ks : List (String × Reading)) :
    settingOfCall cx category build? callee (args.map (Reading.recorded side))
        (ks.map fun k => (k.1, k.2.recorded side)) =
      (Reading.settingOfCall cx category build? callee args ks).step side := by
  rw [settingOfCall, Reading.settingOfCall]
  rcases Constructor.ofNameIn? category callee with _ | c
  · rfl
  · dsimp only
    rw [ofCall_recorded, Binding.missing_map]
    generalize Binding.ofCall c args ks = b
    obtain ⟨bound, _ | ⟨problem, problems⟩⟩ := b
    · dsimp only [Binding.map, List.map]
      split
      · rfl
      · rw [allValues_recorded, step_bind]
        refine congrArg _ (funext fun vs => ?_)
        cases build? c vs <;> rfl
    · dsimp only [Binding.map, List.map]
      rw [expr_recorded, step_fail]

theorem ofOther_recorded (e : Expr) : ofOther e = (Reading.ofOther e).recorded side := by
  have habsent : ∀ {α : Type} (category : Category),
      absentOr (α := α) category e = (Reading.absentOr category e).step side := by
    intro α category
    rw [absentOr, Reading.absentOr]
    split <;> rfl
  rw [ofOther, habsent, habsent, habsent]
  rfl

theorem ofAll_eq (es : List Expr) : ofAll cx side es = es.map (of cx side) := by
  induction es with
  | nil => rfl
  | cons e rest ih => rw [ofAll, ih, List.map_cons]

theorem ofKeywords_eq (kes : List (String × Expr)) :
    ofKeywords cx side kes = kes.map fun ke => (ke.1, of cx side ke.2) := by
  induction kes with
  | nil => rfl
  | cons ke rest ih =>
    obtain ⟨key, e⟩ := ke
    rw [ofKeywords, ih, List.map_cons]

/-- **Recording on the way is recording at the end.** -/
theorem of_eq (cx : Context) (side : String) (e : Expr) :
    of cx side e = (Reading.of cx e).recorded side := by
  induction e using Expr.induct with
  | literal l => exact ofOther_recorded _
  | member k m => exact ofOther_recorded _
  | name w => exact ofOther_recorded _
  | call callee args ks hargs hks =>
    have hall : ofAll cx side args = (args.map (Reading.of cx)).map (Reading.recorded side) := by
      rw [ofAll_eq, List.map_map]
      exact List.map_congr_left hargs
    have hkeywords : ofKeywords cx side ks =
        (ks.map fun ke => (ke.1, Reading.of cx ke.2)).map fun k => (k.1, k.2.recorded side) := by
      rw [ofKeywords_eq, List.map_map]
      exact List.map_congr_left fun ke hke => congrArg (Prod.mk ke.1) (hks ke hke)
    rw [of, hall, hkeywords, Reading.of_call, ofCall, conditionOfCall_recorded,
      seriesOfCall_recorded, settingOfCall_recorded, settingOfCall_recorded,
      settingOfCall_recorded, settingOfCall_recorded]
    rfl

end Recorded

end TradeSignals
