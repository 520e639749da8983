import TradeSignals.Proofs.Validation.Keywords
import TradeSignals.Proofs.Validation.Recording

/-!
# The parts of a strategy are validated apart

Validating an expression inside a parameter of a strategy does not depend on the changelog it is
handed, nor on the name of the parameter, and it adds to the entries of this parameter only
(`TradeSignals.Framed`). This is so since to take a step is to check and then to record
(`TradeSignals.Recorded.of_eq`): a check is made without a changelog, and its notes are all recorded
for the one side.

For a whole strategy it follows that the entries of a side are those that validating the parameters
of that name leaves in an empty changelog, whatever else is wrong with the strategy, and that its
other entries are as if nothing had been noted inside of a parameter
(`TradeSignals.validate_framed`).
-/

namespace TradeSignals

open Verdict

/-! ### Expressions -/

/-- The result of a step on a changelog, and the changelog after it. -/
def Recording.on {α : Type} (x : Recording α) (log : Changelog) : Except Fault α × Changelog :=
  x.run.run log

/-- **A step for a side that keeps to it**: its result is the same for all sides and on all
changelogs, and it only adds to the entries of its side. -/
structure Framed {α : Type} (step : String → Recording α) : Prop where
  /-- Neither the side nor the changelog matters for the result. -/
  result : ∀ (side side' : String) (log log' : Changelog),
    ((step side).on log).1 = ((step side').on log').1
  /-- The changelog is added to for the side. -/
  changes : ∀ (side : String) (log : Changelog), log.Extends side ((step side).on log).2

/-- Checks keep to their side. -/
theorem Check.framed_step {α : Type} (v : Check α) : Framed fun side => v.step side where
  result := fun _ _ _ _ => rfl
  changes := fun side log => Changelog.extends_recordAll log <|
    List.forall_mem_map.2 fun n _ => Changelog.isOf_key side n

namespace Recorded

/-- **Expressions are validated apart**, as conditions, as series and as parameters. -/
theorem framed_of (cx : Context) (e : Expr) (owner : Option Constructor) (slot : Slot) :
    Framed (fun side => (of cx side e).condition) ∧ Framed (fun side => (of cx side e).series) ∧
      Framed fun side => (of cx side e).parameter cx owner slot := by
  simp only [of_eq, parameter_recorded]
  exact ⟨Check.framed_step _, Check.framed_step _, Check.framed_step _⟩

end Recorded

/-! ### Notes of a strategy -/

section Notes

variable {ν ε α β : Type} {P : ν → Prop}

theorem Verdict.forall_notes_pure (a : α) : ∀ n ∈ (pure a : Verdict ν ε α).notes, P n :=
  List.forall_mem_nil P

theorem Verdict.forall_notes_fail (e : ε) : ∀ n ∈ (fail e : Verdict ν ε α).notes, P n :=
  List.forall_mem_nil P

theorem Verdict.forall_notes_note {n : ν} (h : P n) :
    ∀ m ∈ (note n : Verdict ν ε Unit).notes, P m :=
  List.forall_mem_singleton.2 h

/-- What holds of the notes of both checks holds of those of the one after the other. -/
theorem Verdict.forall_notes_bind {v : Verdict ν ε α} {f : α → Verdict ν ε β}
    (h : ∀ n ∈ v.notes, P n) (h' : ∀ a, ∀ n ∈ (f a).notes, P n) : ∀ n ∈ (v >>= f).notes, P n := by
  cases hv : v.result with
  | error e => rwa [bind_of_error hv]
  | ok a =>
    rw [notes_bind_of_ok hv]
    exact List.forall_mem_append.2 ⟨h, h' a⟩

theorem Verdict.notes_bind_pure (v : Verdict ν ε α) (f : α → β) :
    (v >>= fun a => pure (f a)).notes = v.notes := by
  cases hv : v.result with
  | error e => rw [bind_of_error hv]
  | ok a => exact (notes_bind_of_ok hv _).trans (List.append_nil _)

theorem Verdict.forall_notes_forM {f : α → Verdict ν ε Unit} (as : List α)
    (h : ∀ a, ∀ n ∈ (f a).notes, P n) : ∀ n ∈ (as.forM f).notes, P n := by
  induction as with
  | nil => exact forall_notes_pure ()
  | cons a as ih => exact forall_notes_bind (h a) fun _ => ih

end Notes

/-- The parameter inside of which something is repaired. -/
def Repair.inside? : Repair → Option Field
  | .inside side _ => some side
  | _ => none

/-- **Repairs inside of a parameter** are recorded for its side, and others for the strategy. -/
theorem Repair.isTop_key (r : Repair) : Changelog.isTop r.key = r.inside?.isNone := by
  cases r with
  | inside side n => exact Changelog.isTop_of_isOf (Changelog.isOf_key side.key n)
  | positionalDropped => exact (by decide : Changelog.isTop "positional_arguments" = true)
  | unknownDropped => exact (by decide : Changelog.isTop "unknown_parameters" = true)
  | refused field | missing field => exact Changelog.isTop_key field
  | tickerReplaced => exact Changelog.isTop_key .ticker
  | datesReplaced => exact Changelog.isTop_key .startDate

theorem Rejection.isTop_key (r : Rejection) : Changelog.isTop r.key = true := by
  cases r with
  | invalid side | missing side => exact Changelog.isTop_key side
  | _ => exact (by decide : Changelog.isTop "strategy" = true)

namespace Strategy

variable {cx : Context} {defaults : Defaults} {today : Date} {ks : List (String × Expr)}

/-- The messages of repairs whose keys are looked at. -/
def messages (p : String → Bool) (repairs : List Repair) : List (String × String) :=
  (repairs.map fun r => (r.key, r.message)).filter fun m => p m.1

theorem messages_append (p : String → Bool) (repairs more : List Repair) :
    messages p (repairs ++ more) = messages p repairs ++ messages p more := by
  rw [messages, List.map_append, List.filter_append]
  rfl

theorem messages_of_top {side : Field} {repairs : List Repair}
    (h : ∀ r ∈ repairs, r.inside? = none) :
    messages (Changelog.isOf side.key) repairs = [] := by
  refine List.filter_eq_nil_iff.2 (List.forall_mem_map.2 fun r hr => Bool.eq_false_iff.1 ?_)
  have htop := r.isTop_key
  rw [h r hr] at htop
  exact Changelog.isOf_of_isTop htop side.key

/-! ### Keyword arguments -/

/-- The messages of one keyword argument for a side. -/
def messagesFor (cx : Context) (side : Field) (k : String × Expr) : List (String × String) :=
  if k.1 = side.key then
    ((Reading.of cx k.2).parameter cx (some .strategy) side.slot).notes.map
      fun n => (n.key side.key, n.message)
  else []

/-- **The changelog of a side on its own**: what is in it after the parameters of that name have
been validated, one after the other, with nothing recorded before. -/
def alone (cx : Context) (side : Field) (ks : List (String × Expr)) : Changelog :=
  ks.foldl (fun log k =>
    if k.1 = side.key then
      (((Recorded.of cx side.key k.2).parameter cx (some .strategy) side.slot).on log).2
    else log) .empty

theorem alone_eq (cx : Context) (side : Field) (ks : List (String × Expr)) :
    alone cx side ks = .ofMessages (ks.flatMap (messagesFor cx side)) := by
  rw [alone, Changelog.ofMessages]
  generalize Changelog.empty = log
  induction ks generalizing log with
  | nil => rfl
  | cons k ks ih =>
    rw [List.foldl_cons, ih, List.flatMap_cons, Changelog.recordAll_append, messagesFor,
      Recorded.of_eq, Recorded.parameter_recorded]
    split <;> rfl

/-- Inside of a parameter, repairs are recorded for no other side. -/
theorem messages_inside (f side : Field) (notes : List Note) :
    messages (Changelog.isOf side.key) (notes.map (.inside f)) =
      if f.key = side.key then notes.map fun n => (n.key side.key, n.message) else [] := by
  rw [messages, List.map_map]
  split
  · next heq =>
    obtain rfl := Field.key_injective heq
    exact List.filter_eq_self.2 (List.forall_mem_map.2 fun n _ => Changelog.isOf_key f.key n)
  · next hne =>
    refine List.filter_eq_nil_iff.2 (List.forall_mem_map.2 fun n _ hof => hne ?_)
    exact Changelog.side_unique (Changelog.isTop_key f) (Changelog.isTop_key side)
      (Changelog.isOf_key f.key n) hof

/-- What is noted about one parameter: what is noted inside of it, and then maybe its fault. -/
theorem notes_checkField (cx : Context) (defaults : Defaults) (f : Field) (e : Expr) :
    ∃ after, (checkField cx defaults f e).notes =
        ((Reading.of cx e).parameter cx (some .strategy) f.slot).notes.map (.inside f) ++ after ∧
      ∀ r ∈ after, r.inside? = none := by
  rw [checkField]
  generalize (Reading.of cx e).parameter cx (some .strategy) f.slot = check
  have hnotes : ((check.translate (Repair.inside f) id).attempt.translate id
      (Rejection.invalid f)).notes = check.notes.map (.inside f) := List.map_id _
  have hresult : ((check.translate (Repair.inside f) id).attempt.translate id
      (Rejection.invalid f)).result = .ok check.result := by
    obtain ⟨_, fault | v⟩ := check <;> rfl
  rw [notes_bind_of_ok hresult, hnotes]
  refine ⟨_, rfl, ?_⟩
  cases check.result with
  | ok v => exact forall_notes_pure _
  | error fault =>
    dsimp only
    split
    · exact forall_notes_fail _
    · exact forall_notes_bind (forall_notes_note rfl) fun _ => forall_notes_pure _

theorem messages_checkField (cx : Context) (defaults : Defaults) (side f : Field) (e : Expr) :
    messages (Changelog.isOf side.key) (checkField cx defaults f e).notes =
      messagesFor cx side (f.key, e) := by
  obtain ⟨after, hnotes, hafter⟩ := notes_checkField cx defaults f e
  rw [hnotes, messages_append, messages_of_top hafter, messages_inside, List.append_nil,
    messagesFor]
  split
  · next heq => rw [Field.key_injective heq]
  · rfl

/-- Keywords that are passed over have no messages: they name no parameter, or it is the ticker, and
about a ticker nothing is noted. -/
theorem messagesFor_of_other {key : String} (hkey : ∀ f ≠ .ticker, Field.ofKey? key ≠ some f)
    (cx : Context) (side : Field) (e : Expr) : messagesFor cx side (key, e) = [] := by
  rw [messagesFor]
  split
  · next heq =>
    obtain rfl : side = .ticker := by
      by_contra hne
      exact hkey side hne ((congrArg Field.ofKey? heq).trans (Field.ofKey?_key side))
    have hnotes : ((Reading.of cx e).parameter cx (some .strategy) Field.ticker.slot).notes = [] :=
      notes_bind_eq_nil rfl fun v => by split <;> rfl
    exact congrArg (List.map _) hnotes
  · rfl

/-- **The keyword arguments that are reached**: all of them, or those up to a condition that is
none. For each side, what is recorded is what they have for it. -/
theorem reached_checkFields (cx : Context) (defaults : Defaults) (ks : List (String × Expr)) :
    ∃ reached, reached <+: ks ∧
      (reached = ks ∨ ∃ f fault, (checkFields cx defaults ks).result = .error (.invalid f fault)) ∧
      ∀ side : Field, messages (Changelog.isOf side.key) (checkFields cx defaults ks).notes =
        reached.flatMap (messagesFor cx side) := by
  induction ks with
  | nil => exact ⟨[], List.prefix_refl [], .inl rfl, fun _ => rfl⟩
  | cons k ks ih =>
    obtain ⟨key, e⟩ := k
    obtain ⟨reached, hprefix, hall, hmessages⟩ := ih
    by_cases hfield : ∃ f ≠ .ticker, Field.ofKey? key = some f
    · obtain ⟨f, hf, hkey⟩ := hfield
      obtain rfl := Field.key_of_ofKey? hkey
      rcases hfound : (checkField cx defaults f e).result with r | found
      · -- The condition is none, and the keywords after it are not looked at.
        have hresult : checkFields cx defaults ((f.key, e) :: ks) =
            ⟨(checkField cx defaults f e).notes, .error r⟩ := by
          rw [checkFields_cons hkey hf, bind_of_error hfound]
        obtain ⟨g, -, fault, -, -, -, rfl⟩ := checkFields_eq_error (congrArg Verdict.result hresult)
        refine ⟨[(f.key, e)], List.prefix_append [(f.key, e)] ks,
          .inr ⟨g, fault, congrArg Verdict.result hresult⟩, fun side => ?_⟩
        rw [hresult]
        exact (messages_checkField cx defaults side f e).trans (List.append_nil _).symm
      · refine ⟨(f.key, e) :: reached, (List.prefix_cons_inj _).2 hprefix, ?_, fun side => ?_⟩
        · refine hall.imp (congrArg _) fun ⟨g, fault, h⟩ => ⟨g, fault, ?_⟩
          rw [checkFields_cons hkey hf, result_bind_of_ok hfound, bind_of_error h]
        · rw [checkFields_cons hkey hf, notes_bind_of_ok hfound, notes_bind_pure, messages_append,
            messages_checkField, hmessages, List.flatMap_cons]
    · have hkey : ∀ f ≠ .ticker, Field.ofKey? key ≠ some f := fun f hf heq => hfield ⟨f, hf, heq⟩
      rw [checkFields_cons_of_other hkey]
      refine ⟨(key, e) :: reached, (List.prefix_cons_inj _).2 hprefix, hall.imp_left (congrArg _),
        fun side => ?_⟩
      rw [hmessages side, List.flatMap_cons, messagesFor_of_other hkey, List.nil_append]

/-! ### Whole strategies -/

theorem forall_notes_ofSettings (cx : Context) (defaults : Defaults) (settings : Settings) :
    ∀ r ∈ (ofSettings cx defaults settings).notes, r.inside? = none := by
  have hcondition : ∀ side, ∀ r ∈ (requireCondition settings side).notes, r.inside? = none := by
    intro side
    rw [requireCondition]
    split
    · exact forall_notes_pure _
    · exact forall_notes_fail _
  have hmissing : ∀ f, ∀ r ∈ (noteMissing cx defaults settings f).notes, r.inside? = none := by
    intro f
    rw [noteMissing]
    split
    · exact forall_notes_note rfl
    · exact forall_notes_pure _
  have hdates : ∀ start finish, ∀ r ∈ (checkDates cx defaults start finish).notes,
      r.inside? = none := by
    intro start finish
    rw [checkDates.eq_def]
    split
    · split
      · exact forall_notes_pure _
      · exact forall_notes_bind (forall_notes_note rfl) fun _ => forall_notes_pure _
    · exact forall_notes_pure _
  rw [ofSettings]
  exact forall_notes_bind (hcondition _) fun buy => forall_notes_bind (hcondition _) fun sell =>
    forall_notes_bind (forall_notes_forM _ hmissing) fun _ => forall_notes_bind (hdates _ _)
      fun dates => forall_notes_pure _

/-- What is noted about a strategy: what is noted about its keyword arguments, with notes about the
strategy itself before and after it. -/
theorem notes_checkArguments_eq (defaults : Defaults) (today : Date) (args : List Expr)
    (ks : List (String × Expr)) :
    ∃ before after, (checkArguments defaults today args ks).notes =
        before ++ (checkFields ⟨tickerOf defaults ks, today⟩ defaults ks).notes ++ after ∧
      (∀ r ∈ before, r.inside? = none) ∧ ∀ r ∈ after, r.inside? = none := by
  have hpositional : ∀ r ∈ (if args.isEmpty then [] else [Repair.positionalDropped args.length]),
      r.inside? = none := by
    split
    · exact List.forall_mem_nil _
    · exact List.forall_mem_singleton.2 rfl
  have hticker : ∀ r ∈ (checkTicker defaults ks).notes, r.inside? = none := by
    rw [checkTicker]
    split
    · exact forall_notes_pure _
    · exact forall_notes_bind (forall_notes_note rfl) fun _ => forall_notes_pure _
    · exact forall_notes_bind (forall_notes_note rfl) fun _ => forall_notes_pure _
  have hunknown : ∀ r ∈ (noteUnknown ks).notes, r.inside? = none := by
    rw [noteUnknown]
    split
    · exact forall_notes_pure _
    · exact forall_notes_note rfl
  rw [notes_checkArguments]
  rcases hfields : (checkFields ⟨tickerOf defaults ks, today⟩ defaults ks).result with r | settings
  · refine ⟨_, [], ?_, List.forall_mem_append.2 ⟨hpositional, hticker⟩, List.forall_mem_nil _⟩
    rw [checkKeywords, notes_bind_of_ok (result_checkTicker defaults ks), bind_of_error hfields,
      List.append_nil, List.append_assoc]
  · refine ⟨_, _, ?_, List.forall_mem_append.2 ⟨hpositional, hticker⟩,
      List.forall_mem_append.2 ⟨hunknown, forall_notes_ofSettings ⟨tickerOf defaults ks, today⟩
        defaults settings⟩⟩
    rw [notes_checkKeywords hfields, List.append_assoc, List.append_assoc]

end Strategy

namespace Outcome

/-- The message of a rejection, if there is one. -/
def rejected (v : StrategyCheck Strategy) : List (String × String) :=
  match v.result with
  | .ok _ => []
  | .error rejection => [(rejection.key, rejection.message)]

theorem changes_ofCheck_eq (v : StrategyCheck Strategy) : (ofCheck v).changes =
    Changelog.ofMessages ((v.notes.map fun r => (r.key, r.message)) ++ rejected v) := by
  rw [Changelog.ofMessages, Changelog.recordAll_append, ofCheck, rejected]
  cases v.result <;> rfl

theorem restrict_changes (p : String → Bool) (v : StrategyCheck Strategy) :
    (ofCheck v).changes.restrict p = Changelog.ofMessages
      (Strategy.messages p v.notes ++ (rejected v).filter fun m => p m.1) := by
  rw [changes_ofCheck_eq, Changelog.ofMessages, Changelog.restrict_recordAll, List.filter_append]
  rfl

/-- A rejection is recorded for the strategy itself. -/
theorem isTop_rejected (v : StrategyCheck Strategy) :
    ∀ m ∈ rejected v, Changelog.isTop m.1 = true := by
  rw [rejected]
  split
  · exact List.forall_mem_nil _
  · next rejection _ => exact List.forall_mem_singleton.2 rejection.isTop_key

/-- What is recorded about the strategy itself. -/
theorem restrict_isTop (v : StrategyCheck Strategy) :
    (ofCheck v).changes.restrict Changelog.isTop = Changelog.ofMessages
      (((v.notes.filter fun r => r.inside?.isNone).map fun r => (r.key, r.message)) ++
        rejected v) := by
  rw [restrict_changes, List.filter_eq_self.2 (isTop_rejected v), Strategy.messages,
    List.filter_map]
  have hsame : (fun m : String × String => Changelog.isTop m.1) ∘
      (fun r : Repair => (r.key, r.message)) = fun r => r.inside?.isNone :=
    funext Repair.isTop_key
  rw [hsame]

/-- What is recorded inside of a parameter. -/
theorem restrict_isOf (side : Field) (v : StrategyCheck Strategy) :
    (ofCheck v).changes.restrict (Changelog.isOf side.key) =
      Changelog.ofMessages (Strategy.messages (Changelog.isOf side.key) v.notes) := by
  have hnone : (rejected v).filter (fun m => Changelog.isOf side.key m.1) = [] :=
    List.filter_eq_nil_iff.2 fun m hm =>
      Bool.eq_false_iff.1 (Changelog.isOf_of_isTop (isTop_rejected v m hm) side.key)
  rw [restrict_changes, hnone, List.append_nil]

end Outcome

namespace Strategy

/-- A text that is not written as a strategy is rejected, and nothing else is said about it. -/
theorem keys_of_not_isCall {source : String} (h : ∀ args ks, ¬IsCall source args ks)
    (defaults : Defaults) (today : Date) :
    (validate source defaults today).changes.keys = ["strategy"] := by
  rw [validate, check]
  rcases hparse : Expr.parse source with error | root
  · rfl
  · dsimp only
    rw [checkExpr.eq_def]
    split
    · rfl
    · next hnone =>
      split
      · next callee args ks =>
        split
        · next hcallee =>
          subst hcallee
          exact absurd ⟨hparse, DeniedName.find?_eq_none_iff.1 hnone⟩ (h args ks)
        · rfl
      · rfl

/-- **Inside of a parameter**, what is recorded is what is recorded when the keyword arguments that
are reached are validated alone. -/
theorem IsCall.restrict_isOf {source : String} {args : List Expr} {ks : List (String × Expr)}
    (h : IsCall source args ks) (defaults : Defaults) (today : Date) :
    ∃ reached, reached <+: ks ∧
      (reached = ks ∨ ∃ f fault,
        (check source defaults today).result = .error (.invalid f fault)) ∧
      ∀ side : Field,
        (validate source defaults today).changes.restrict (Changelog.isOf side.key) =
          alone ⟨tickerOf defaults ks, today⟩ side reached := by
  obtain ⟨reached, hprefix, hall, hmessages⟩ :=
    reached_checkFields ⟨tickerOf defaults ks, today⟩ defaults ks
  refine ⟨reached, hprefix, ?_, fun side => ?_⟩
  · refine hall.imp_right fun ⟨f, fault, hfault⟩ => ⟨f, fault, ?_⟩
    rw [h.check_eq, result_checkArguments, checkKeywords,
      result_bind_of_ok (result_checkTicker defaults ks), bind_of_error hfault]
  · obtain ⟨before, after, hnotes, hbefore, hafter⟩ :=
      notes_checkArguments_eq defaults today args ks
    rw [validate, Outcome.restrict_isOf, h.check_eq, hnotes, messages_append, messages_append,
      messages_of_top hbefore, messages_of_top hafter, hmessages, List.nil_append, List.append_nil,
      alone_eq]

end Strategy

/-- **The parts of a strategy are validated apart.**

* Validating an expression with the changelog at hand is checking it, and recording what is noted.
* Validating an expression as a condition, as a series or as a parameter gives the same result
  whatever the changelog is and whatever side it is for. It adds to the changelog for this side
  only: keys that are there keep their places, other entries their messages, and new keys are at
  the end.
* So what the changelog of a text has about the strategy itself is what is recorded of the repairs
  that are made inside of no parameter, and of the rejection if there is one.
* For each parameter of a strategy, what the changelog has inside of it is what is recorded when the
  keyword arguments of this name are validated alone. They are all reached, unless a condition is
  none and the validation ends there.
* Of a text that is not written as a strategy, nothing is recorded but that. -/
theorem validate_framed :
    (∀ (cx : Context) (side : String) (e : Expr),
      Recorded.of cx side e = (Reading.of cx e).recorded side) ∧
    (∀ (cx : Context) (e : Expr) (owner : Option Constructor) (slot : Slot),
      Framed (fun side => (Recorded.of cx side e).condition) ∧
        Framed (fun side => (Recorded.of cx side e).series) ∧
        Framed fun side => (Recorded.of cx side e).parameter cx owner slot) ∧
    ∀ (source : String) (defaults : Defaults) (today : Date),
      let v := Strategy.check source defaults today
      let changes := (validate source defaults today).changes
      changes.restrict Changelog.isTop = Changelog.ofMessages
        (((v.notes.filter fun r => r.inside?.isNone).map fun r => (r.key, r.message)) ++
          Outcome.rejected v) ∧
      (∀ args ks, Strategy.IsCall source args ks → ∃ reached, reached <+: ks ∧
        (reached = ks ∨ ∃ f fault, v.result = .error (.invalid f fault)) ∧
        ∀ side : Field, changes.restrict (Changelog.isOf side.key) =
          Strategy.alone ⟨Strategy.tickerOf defaults ks, today⟩ side reached) ∧
      ((∀ args ks, ¬Strategy.IsCall source args ks) → changes.keys = ["strategy"]) :=
  ⟨Recorded.of_eq, Recorded.framed_of, fun _ defaults today => ⟨Outcome.restrict_isTop _,
    fun _ _ h => h.restrict_isOf defaults today,
    fun h => Strategy.keys_of_not_isCall h defaults today⟩⟩

/-- The same call on both sides has an entry for each of them. -/
example :
    let call := "OR(UptrendForXDaysCondition(OBV(), 3), x=1)"
    let source :=
      "Strategy(ticker='A', sell_condition=" ++ call ++ ", buy_condition=" ++ call ++ ")"
    (validate source .standard ⟨2024, 2, 29, by decide⟩).changes.keys =
      ["sell_condition:OR.x", "buy_condition:OR.x", "position_type", "interval", "initial_capital",
        "order_size"] := by
  decide +kernel

end TradeSignals
