import TradeSignals.Proofs.Validation.Changelog
import TradeSignals.Proofs.Validation.Faithful
import TradeSignals.Proofs.Validation.Idempotence

/-!
# What is accepted without a change

A text that is accepted without a change is the canonical text of its strategy in other words,
and no default was used for it: `TradeSignals.validate_unchanged`. So whatever validation drops,
replaces or adds leaves a trace in the changes, and no later change takes it away again.

Settings that were read without a note are *complete*
(`TradeSignals.Strategy.Settings.Complete`): what has a default is there, so all defaults come to
the same strategy (`TradeSignals.Strategy.assemble_congr`).

The parameters of a strategy are keyword arguments in any order, some of them left out. It is
said for each parameter on its own how it is written in the text and in the canonical text
(`TradeSignals.Strategy.restated_cases`). As no key is there twice and none is unknown, this
gives all arguments.
-/

namespace TradeSignals

open Verdict Reading

theorem Verdict.forM_eq_pure {ν ε α : Type} {f : α → Verdict ν ε Unit} {as : List α} :
    as.forM f = pure () ↔ ∀ a ∈ as, f a = pure () := by
  induction as with
  | nil => exact ⟨fun _ _ ha => absurd ha List.not_mem_nil, fun _ => rfl⟩
  | cons a as ih =>
    rw [List.forM, bind_eq_pure, List.forall_mem_cons, ← ih]
    constructor
    · rintro ⟨_, ha, has⟩
      exact ⟨ha, has⟩
    · rintro ⟨ha, has⟩
      exact ⟨(), ha, has⟩

namespace Strategy

variable {cx : Context} {defaults : Defaults} {ks : List (String × Expr)} {settings : Settings}
  {s : Strategy}

/-! ### Settings -/

theorem checkTicker_eq_pure {t : String} : checkTicker defaults ks = pure t ↔
    (keyword? ks .ticker).map Plain.ticker = some (.ok t) := by
  unfold checkTicker
  split
  · next h =>
    rw [h]
    exact ⟨fun h => congrArg (some ∘ Except.ok) (Except.ok.inj (eq_pure_iff.1 h).2),
      fun h => congrArg pure (Except.ok.inj (Option.some.inj h))⟩
  · next h =>
    rw [h]
    exact ⟨fun h => absurd h note_bind_ne_pure, fun h => nomatch h⟩
  · next h =>
    rw [h]
    exact ⟨fun h => absurd h note_bind_ne_pure, fun h => nomatch h⟩

/-- A parameter that is checked without a note has a value, and no default is asked for. -/
theorem checkField_eq_pure {f : Field} {e : Expr} {x : Except Fault Value} :
    checkField cx defaults f e = pure x ↔
      ∃ v, x = .ok v ∧ (Reading.of cx e).parameter cx (some .strategy) f.slot = pure v := by
  constructor
  · intro h
    obtain ⟨y, hy, h⟩ := bind_eq_pure.1 h
    cases y with
    | ok v =>
      cases (eq_pure_iff.1 h).2
      exact ⟨v, rfl, translate_eq_pure.1 (attempt_eq_pure.1 (translate_eq_pure.1 hy))⟩
    | error fault =>
      dsimp only at h
      split at h
      · exact absurd h fail_ne_pure
      · exact absurd h note_bind_ne_pure
  · rintro ⟨v, rfl, h⟩
    exact checkField_exact ⟨h⟩

/-- How a parameter other than the ticker is read from the keyword arguments of a strategy:
either it is not among them, or it has a value. -/
def Settings.Reads (cx : Context) (ks : List (String × Expr)) (settings : Settings) (f : Field) :
    Prop :=
  (keyword? ks f = none ∧ settings.lookup f = none) ∨ ∃ e v, keyword? ks f = some e ∧
    settings.lookup f = some (.ok v) ∧
    (Reading.of cx e).parameter cx (some .strategy) f.slot = pure v

theorem keyword?_cons (key : String) (e : Expr) (f : Field) :
    keyword? ((key, e) :: ks) f = if key = f.key then some e else keyword? ks f := by
  rw [keyword?, List.find?_cons]
  split
  · next h => rw [if_pos (beq_iff_eq.1 h), Option.map_some]
  · next h => rw [if_neg (beq_eq_false_iff_ne.1 h), keyword?]

theorem keyword?_cons_of_other {key : String} {e : Expr} {f : Field}
    (hkey : Field.ofKey? key ≠ some f) : keyword? ((key, e) :: ks) f = keyword? ks f := by
  have hne : key ≠ f.key := fun heq => hkey (heq ▸ Field.ofKey?_key f)
  rw [keyword?_cons, if_neg hne]

theorem checkFields_cons {key : String} {e : Expr} {f : Field} (hkey : Field.ofKey? key = some f)
    (hf : f ≠ .ticker) : checkFields cx defaults ((key, e) :: ks) = (do
      let setting ← checkField cx defaults f e
      return (f, setting) :: (← checkFields cx defaults ks)) := by
  rw [checkFields, hkey]
  cases f <;> first | rfl | exact absurd rfl hf

theorem checkFields_cons_of_other {key : String} {e : Expr}
    (hkey : ∀ f ≠ .ticker, Field.ofKey? key ≠ some f) :
    checkFields cx defaults ((key, e) :: ks) = checkFields cx defaults ks := by
  rw [checkFields]
  split
  · rfl
  · rfl
  · next f hne hf => exact absurd hf (hkey f hne)

/-- **Parameters that are checked without a note** are all read, whatever the defaults. -/
theorem checkFields_eq_pure (h : checkFields cx defaults ks = pure settings) :
    (∀ f ≠ .ticker, settings.Reads cx ks f) ∧
      ∀ other, checkFields cx other ks = pure settings := by
  induction ks generalizing settings with
  | nil =>
    cases (eq_pure_iff.1 h).2
    exact ⟨fun f _ => .inl ⟨rfl, rfl⟩, fun other => rfl⟩
  | cons ke ks ih =>
    obtain ⟨key, e⟩ := ke
    by_cases hfield : ∃ f ≠ .ticker, Field.ofKey? key = some f
    · obtain ⟨f, hf, hkey⟩ := hfield
      rw [checkFields_cons hkey hf] at h
      obtain ⟨x, hx, h⟩ := bind_eq_pure.1 h
      obtain ⟨settings', hsettings', h⟩ := bind_eq_pure.1 h
      obtain ⟨v, rfl, hv⟩ := checkField_eq_pure.1 hx
      obtain ⟨hreads, hother⟩ := ih hsettings'
      cases (eq_pure_iff.1 h).2
      refine ⟨fun g hg => ?_, fun other => ?_⟩
      · rw [Settings.Reads, keyword?_cons, ← Field.key_of_ofKey? hkey]
        by_cases hgf : f = g
        · subst hgf
          exact .inr ⟨e, v, if_pos rfl, List.lookup_cons_self, hv⟩
        · have hne : f.key ≠ g.key := fun heq => hgf (Field.key_injective heq)
          rw [if_neg hne, List.lookup_cons, beq_eq_false_iff_ne.2 (Ne.symm hgf)]
          exact hreads g hg
      · rw [checkFields_cons hkey hf, checkField_eq_pure.2 ⟨v, rfl, hv⟩, hother other]
        rfl
    · have hkey : ∀ f ≠ .ticker, Field.ofKey? key ≠ some f := fun f hf heq => hfield ⟨f, hf, heq⟩
      rw [checkFields_cons_of_other hkey] at h
      obtain ⟨hreads, hother⟩ := ih h
      refine ⟨fun f hf => ?_, fun other => ?_⟩
      · rw [Settings.Reads, keyword?_cons_of_other (hkey f hf)]
        exact hreads f hf
      · rw [checkFields_cons_of_other hkey, hother other]

/-! ### Parts of a strategy -/

namespace Settings.Reads

variable {f : Field} {v : Value}

theorem wasRefused_eq_false (h : settings.Reads cx ks f) : wasRefused settings f = false := by
  rw [wasRefused]
  obtain ⟨-, h⟩ | ⟨e, v, -, h, -⟩ := h <;> rw [h]

theorem tag_of_given? (h : settings.Reads cx ks f) (hv : given? settings f = some v) :
    v.tag = f.tag := by
  rw [given?] at hv
  obtain ⟨-, h⟩ | ⟨e, w, -, h, hw⟩ := h
  · rw [h] at hv
    cases hv
  · rw [h] at hv
    cases hv
    exact (stands_of_parameter (faithful_of cx e) hw).1

theorem exists_given? (h : settings.Reads cx ks f) (hsome : (settings.lookup f).isSome = true) :
    ∃ v, given? settings f = some v ∧ v.tag = f.tag := by
  obtain ⟨-, hlookup⟩ | ⟨e, v, -, hlookup, -⟩ := id h
  · rw [hlookup] at hsome
    cases hsome
  · have hv : given? settings f = some v := by rw [given?, hlookup]
    exact ⟨v, hv, h.tag_of_given? hv⟩

/-- A date that is read is not a default. -/
theorem dateOf_eq (h : settings.Reads cx ks f) (hf : f.tag = .date) (default : Date) :
    (dateOf cx settings f default).map Value.date = given? settings f := by
  rw [dateOf, h.wasRefused_eq_false]
  cases hv : given? settings f with
  | none => rfl
  | some v =>
    have htag := (h.tag_of_given? hv).trans hf
    cases v with
    | date d => rfl
    | _ => cases htag

theorem expr?_stopLossOf (h : settings.Reads cx ks .stopLoss) :
    (stopLossOf settings).map StopLoss.toExpr =
      (given? settings .stopLoss).bind Value.expr? := by
  rw [stopLossOf]
  cases hv : given? settings .stopLoss with
  | none => rfl
  | some v =>
    have htag := h.tag_of_given? hv
    cases v with
    | stopLoss x => rfl
    | _ => cases htag

theorem expr?_takeProfitOf (h : settings.Reads cx ks .takeProfit) :
    (takeProfitOf settings).map TakeProfit.toExpr =
      (given? settings .takeProfit).bind Value.expr? := by
  rw [takeProfitOf]
  cases hv : given? settings .takeProfit with
  | none => rfl
  | some v =>
    have htag := h.tag_of_given? hv
    cases v with
    | takeProfit x => rfl
    | _ => cases htag

theorem expr?_periodOf (h : settings.Reads cx ks .period) :
    (periodOf settings).map (memberExpr .period) =
      (given? settings .period).bind Value.expr? := by
  rw [periodOf]
  cases hv : given? settings .period with
  | none => rfl
  | some v =>
    have htag := h.tag_of_given? hv
    cases v with
    | period x => rfl
    | _ => cases htag

theorem expr?_tradeCommissionsOf (h : settings.Reads cx ks .tradeCommissions) :
    (tradeCommissionsOf settings).map Commission.toExpr =
      (given? settings .tradeCommissions).bind Value.expr? := by
  rw [tradeCommissionsOf]
  cases hv : given? settings .tradeCommissions with
  | none => rfl
  | some v =>
    have htag := h.tag_of_given? hv
    cases v with
    | commission x => rfl
    | _ => cases htag

end Settings.Reads

/-- **Settings that leave nothing to the defaults**: each parameter is read, and none that has a
default is missing. -/
structure Settings.Complete (cx : Context) (ks : List (String × Expr)) (settings : Settings) :
    Prop where
  /-- Each parameter is read. -/
  reads : ∀ f ≠ .ticker, settings.Reads cx ks f
  /-- What has a default is there. -/
  present : ∀ f ∈ defaulted, (settings.lookup f).isSome = true

namespace Settings.Complete

theorem exists_given? (h : settings.Complete cx ks) {f : Field} (hf : f ∈ defaulted) :
    ∃ v, given? settings f = some v ∧ v.tag = f.tag :=
  (h.reads f fun hticker => absurd (hticker ▸ hf) (by decide)).exists_given? (h.present f hf)

theorem given?_positionType (h : settings.Complete cx ks) (defaults : Defaults) :
    given? settings .positionType = some (.positionType (positionTypeOf defaults settings)) := by
  obtain ⟨v, hv, htag⟩ := h.exists_given? (f := .positionType) (by decide)
  rw [positionTypeOf, hv]
  cases v with
  | positionType p => rfl
  | _ => cases htag

theorem given?_interval (h : settings.Complete cx ks) (defaults : Defaults) :
    given? settings .interval = some (.interval (intervalOf defaults settings)) := by
  obtain ⟨v, hv, htag⟩ := h.exists_given? (f := .interval) (by decide)
  rw [intervalOf, hv]
  cases v with
  | interval i => rfl
  | _ => cases htag

theorem given?_initialCapital (h : settings.Complete cx ks) (defaults : Defaults) :
    given? settings .initialCapital = some (.float (initialCapitalOf defaults settings)) := by
  obtain ⟨v, hv, htag⟩ := h.exists_given? (f := .initialCapital) (by decide)
  rw [initialCapitalOf, hv]
  cases v with
  | float x => rfl
  | _ => cases htag

theorem given?_orderSize (h : settings.Complete cx ks) (defaults : Defaults) :
    given? settings .orderSize = some (.orderSize (orderSizeOf defaults settings)) := by
  obtain ⟨v, hv, htag⟩ := h.exists_given? (f := .orderSize) (by decide)
  rw [orderSizeOf, hv]
  cases v with
  | orderSize size => rfl
  | _ => cases htag

/-- The dates do not depend on the default ones. -/
theorem dateOf_congr (h : settings.Complete cx ks) {f : Field} (hf : f.tag = .date)
    (d d' : Date) : dateOf cx settings f d = dateOf cx settings f d' := by
  have hreads := h.reads f fun hticker => absurd (hticker ▸ hf) (by decide)
  exact Option.map_injective (fun _ _ => Value.date.inj)
    ((hreads.dateOf_eq hf d).trans (hreads.dateOf_eq hf d').symm)

end Settings.Complete

theorem given?_of_requireCondition {side : Field} {c : Condition}
    (h : requireCondition settings side = pure c) : given? settings side = some (.condition c) := by
  unfold requireCondition at h
  split at h
  · next hgiven =>
    cases (eq_pure_iff.1 h).2
    exact hgiven
  · exact absurd h fail_ne_pure

theorem noteMissing_eq_pure {fs : List Field} :
    fs.forM (noteMissing cx defaults settings) = pure () ↔
      ∀ f ∈ fs, (settings.lookup f).isSome = true := by
  rw [forM_eq_pure]
  refine forall₂_congr fun f _ => ?_
  rw [noteMissing]
  cases settings.lookup f with
  | none =>
    exact ⟨fun h => absurd (eq_pure_iff.1 h).1 (List.cons_ne_nil _ _),
      fun h => absurd h Bool.false_ne_true⟩
  | some x => exact ⟨fun _ => rfl, fun _ => rfl⟩

theorem checkDates_eq_pure {start finish : Option Date} {dates : Option Date × Option Date} :
    checkDates cx defaults start finish = pure dates ↔
      dates = (start, finish) ∧ ∀ d e, start = some d → finish = some e → d < e := by
  constructor
  · intro h
    unfold checkDates at h
    split at h
    · split at h
      · next hlt =>
        cases (eq_pure_iff.1 h).2
        refine ⟨rfl, ?_⟩
        rintro _ _ ⟨⟩ ⟨⟩
        exact hlt
      · exact absurd h note_bind_ne_pure
    · next hnot =>
      cases (eq_pure_iff.1 h).2
      refine ⟨rfl, ?_⟩
      rintro d e rfl rfl
      exact absurd rfl (hnot d e rfl)
  · rintro ⟨rfl, h⟩
    exact checkDates_exact h

/-- The strategy that settings come to, with the dates as they are read. -/
def assemble (cx : Context) (defaults : Defaults) (settings : Settings) (buy sell : Condition) :
    Strategy where
  ticker := cx.ticker
  positionType := positionTypeOf defaults settings
  buyCondition := buy
  sellCondition := sell
  startDate := dateOf cx settings .startDate defaults.startDate
  endDate := dateOf cx settings .endDate defaults.endDate
  stopLoss := stopLossOf settings
  takeProfit := takeProfitOf settings
  interval := intervalOf defaults settings
  period := periodOf settings
  initialCapital := initialCapitalOf defaults settings
  orderSize := orderSizeOf defaults settings
  tradeCommissions := tradeCommissionsOf settings

/-- **Settings come to a strategy without a note** if both conditions are there, nothing that has
a default is missing, and the dates are in order. -/
theorem ofSettings_eq_pure : ofSettings cx defaults settings = pure s ↔
    ∃ buy sell, requireCondition settings .buyCondition = pure buy ∧
      requireCondition settings .sellCondition = pure sell ∧
      (∀ f ∈ defaulted, (settings.lookup f).isSome = true) ∧
      (∀ d e, (assemble cx defaults settings buy sell).startDate = some d →
        (assemble cx defaults settings buy sell).endDate = some e → d < e) ∧
      s = assemble cx defaults settings buy sell := by
  constructor
  · intro h
    obtain ⟨buy, hbuy, h⟩ := bind_eq_pure.1 h
    obtain ⟨sell, hsell, h⟩ := bind_eq_pure.1 h
    obtain ⟨_, hpresent, h⟩ := bind_eq_pure.1 h
    obtain ⟨dates, hdates, h⟩ := bind_eq_pure.1 h
    obtain ⟨rfl, hlt⟩ := checkDates_eq_pure.1 hdates
    cases (eq_pure_iff.1 h).2
    exact ⟨buy, sell, hbuy, hsell, noteMissing_eq_pure.1 hpresent, hlt, rfl⟩
  · rintro ⟨buy, sell, hbuy, hsell, hpresent, hlt, rfl⟩
    exact bind_eq_pure.2 ⟨buy, hbuy, bind_eq_pure.2 ⟨sell, hsell, bind_eq_pure.2
      ⟨(), noteMissing_eq_pure.2 hpresent,
        bind_eq_pure.2 ⟨_, checkDates_eq_pure.2 ⟨rfl, hlt⟩, rfl⟩⟩⟩⟩

/-- Complete settings come to the same strategy under all defaults. -/
theorem assemble_congr (h : settings.Complete cx ks) (buy sell : Condition)
    (defaults other : Defaults) :
    assemble cx defaults settings buy sell = assemble cx other settings buy sell := by
  have hposition := Value.positionType.inj (Option.some.inj
    ((h.given?_positionType defaults).symm.trans (h.given?_positionType other)))
  have hinterval := Value.interval.inj (Option.some.inj
    ((h.given?_interval defaults).symm.trans (h.given?_interval other)))
  have hcapital := Value.float.inj (Option.some.inj
    ((h.given?_initialCapital defaults).symm.trans (h.given?_initialCapital other)))
  have hsize := Value.orderSize.inj (Option.some.inj
    ((h.given?_orderSize defaults).symm.trans (h.given?_orderSize other)))
  rw [assemble, assemble, hposition, hinterval, hcapital, hsize,
    h.dateOf_congr (f := .startDate) rfl defaults.startDate other.startDate,
    h.dateOf_congr (f := .endDate) rfl defaults.endDate other.endDate]

/-- **What is written for a parameter** is the value that was given for it. -/
theorem expr?_assemble (h : settings.Complete cx ks) (defaults : Defaults) {buy sell : Condition}
    (hbuy : requireCondition settings .buyCondition = pure buy)
    (hsell : requireCondition settings .sellCondition = pure sell) {f : Field} (hf : f ≠ .ticker) :
    (assemble cx defaults settings buy sell).expr? f =
      (given? settings f).bind Value.expr? := by
  cases f with
  | ticker => exact absurd rfl hf
  | buyCondition =>
    rw [given?_of_requireCondition hbuy]
    rfl
  | sellCondition =>
    rw [given?_of_requireCondition hsell]
    rfl
  | positionType =>
    rw [h.given?_positionType defaults]
    rfl
  | interval =>
    rw [h.given?_interval defaults]
    rfl
  | initialCapital =>
    rw [h.given?_initialCapital defaults]
    rfl
  | orderSize =>
    rw [h.given?_orderSize defaults]
    rfl
  | startDate =>
    rw [← (h.reads .startDate hf).dateOf_eq rfl defaults.startDate, Option.bind_map]
    exact Option.map_eq_bind
  | endDate =>
    rw [← (h.reads .endDate hf).dateOf_eq rfl defaults.endDate, Option.bind_map]
    exact Option.map_eq_bind
  | stopLoss => exact (h.reads _ hf).expr?_stopLossOf
  | takeProfit => exact (h.reads _ hf).expr?_takeProfitOf
  | period => exact (h.reads _ hf).expr?_periodOf
  | tradeCommissions => exact (h.reads _ hf).expr?_tradeCommissionsOf

/-! ### Arguments -/

/-- How a parameter is given in the text, an explicit `None` left out. -/
def source? (ks : List (String × Expr)) (f : Field) : Option Expr :=
  (keyword? ks f).filter fun e => !Expr.isExplicitNone (f.key, e)

theorem keyword?_eq_some_iff (hkeys : (ks.map (·.1)).Nodup) {f : Field} {e : Expr} :
    keyword? ks f = some e ↔ (f.key, e) ∈ ks := by
  induction ks with
  | nil => exact ⟨fun h => (nomatch h), fun h => (nomatch h)⟩
  | cons k ks ih =>
    obtain ⟨key, e'⟩ := k
    rw [List.map_cons, List.nodup_cons] at hkeys
    rw [keyword?_cons, List.mem_cons, Prod.mk.injEq]
    split
    · next hkey =>
      subst hkey
      refine ⟨fun h => .inl ⟨rfl, (Option.some.inj h).symm⟩, ?_⟩
      rintro (⟨-, rfl⟩ | hmem)
      · rfl
      · exact absurd (List.mem_map_of_mem hmem) hkeys.1
    · next hkey =>
      rw [ih hkeys.2, or_iff_right fun h => hkey h.1.symm]

theorem source?_eq_some_iff (hkeys : (ks.map (·.1)).Nodup) {f : Field} {e : Expr} :
    source? ks f = some e ↔
      (f.key, e) ∈ ks.filter fun k => !Expr.isExplicitNone k := by
  rw [source?, Option.filter_eq_some_iff, keyword?_eq_some_iff hkeys, List.mem_filter]

/-- Only an explicit `None` is read as a setting that is not written. -/
theorem isExplicitNone_iff {f : Field} {e : Expr} {v : Value}
    (h : (Reading.of cx e).parameter cx (some .strategy) f.slot = pure v) :
    Expr.isExplicitNone (f.key, e) = true ↔ v.expr? = none := by
  obtain ⟨htag, hstands⟩ := stands_of_parameter (faithful_of cx e) h
  rw [Reading.expr_of] at hstands
  constructor
  · intro hnone
    obtain ⟨he, hf⟩ := Bool.and_eq_true_iff.1 hnone
    obtain rfl := of_decide_eq_true he
    cases f with
    | stopLoss | takeProfit | tradeCommissions =>
      cases (eq_pure_iff.1 h).2
      rfl
    | _ => exact absurd hf (by decide)
  · intro hnone
    rw [hnone] at hstands
    obtain rfl := hstands
    -- A value that is not written is one of the settings that may be absent.
    cases v with
    | commission | stopLoss | takeProfit => cases f <;> first | rfl | cases htag
    | _ => cases hnone

/-- **Each parameter** is either not written in the text nor in the canonical text, or it is
restated. -/
theorem restated_cases (hticker : keyword? ks .ticker = some (.quoted cx.ticker))
    (hreads : ∀ f ≠ .ticker, settings.Reads cx ks f) (hs : s.ticker = cx.ticker)
    (hexpr : ∀ f ≠ .ticker, s.expr? f = (given? settings f).bind Value.expr?) (f : Field) :
    (source? ks f = none ∧ s.expr? f = none) ∨ ∃ e e', source? ks f = some e ∧
      s.expr? f = some e' ∧ Expr.Restated cx.ticker f.tag e e' := by
  by_cases hf : f = .ticker
  · subst hf
    refine .inr ⟨_, _, ?_, congrArg (some ∘ Expr.quoted) hs, .literal _ _⟩
    rw [source?, hticker]
    rfl
  · rw [hexpr f hf, source?]
    obtain ⟨hkeyword, hlookup⟩ | ⟨e, v, hkeyword, hlookup, hv⟩ := hreads f hf
    · rw [hkeyword, given?, hlookup]
      exact .inl ⟨rfl, rfl⟩
    · have hnone := isExplicitNone_iff hv
      have hstands := (stands_of_parameter (faithful_of cx e) hv).2
      rw [Reading.expr_of] at hstands
      rw [hkeyword, given?, hlookup, Option.filter_some]
      cases he : v.expr? with
      | none => exact .inl ⟨by rw [hnone.2 he]; rfl, he⟩
      | some e' =>
        rw [he] at hstands
        refine .inr ⟨e, e', if_pos ?_, he, hstands⟩
        rw [Bool.not_eq_true', ← Bool.not_eq_true, hnone, he]
        exact Option.some_ne_none e'

/-- Parameters in order are restated if each of them is. -/
theorem restatedArguments_of_cases {ticker : String} {g g' : Field → Option Expr}
    (h : ∀ f, (g f = none ∧ g' f = none) ∨ ∃ e e', g f = some e ∧ g' f = some e' ∧
      Expr.Restated ticker f.tag e e') (fs : List Field) :
    Expr.RestatedArguments ticker ((fs.filter fun f => (g' f).isSome).map Field.slot)
      (fs.filterMap fun f => (g f).map (f.key, ·))
      (fs.filterMap fun f => (g' f).map (f.key, ·)) := by
  induction fs with
  | nil => exact .nil
  | cons f fs ih =>
    obtain ⟨hg, hg'⟩ | ⟨e, e', hg, hg', hrestated⟩ := h f
    · rw [List.filterMap_cons_none (by rw [hg]; rfl), List.filterMap_cons_none (by rw [hg']; rfl),
        List.filter_cons_of_neg (by rw [hg']; exact Bool.false_ne_true)]
      exact ih
    · rw [List.filterMap_cons_some (b := (f.key, e)) (by rw [hg]; rfl),
        List.filterMap_cons_some (b := (f.key, e')) (by rw [hg']; rfl),
        List.filter_cons_of_pos (by rw [hg']; rfl)]
      exact .cons hrestated ih

/-- **The arguments of a strategy**, if there is none twice and none unknown, are its parameters
in another order. -/
theorem arguments_perm (hkeys : (ks.map (·.1)).Nodup) (hknown : unknownKeys ks = []) :
    (ks.filter fun k => !Expr.isExplicitNone k).Perm
      (Field.all.filterMap fun f => (source? ks f).map (f.key, ·)) := by
  have hgiven := (keys_sublist (source? ks) Field.all).nodup (by decide)
  refine (List.perm_ext_iff_of_nodup (hkeys.of_map.filter _) hgiven.of_map).2 fun k => ?_
  obtain ⟨key, e⟩ := k
  rw [List.mem_filterMap]
  constructor
  · intro hmem
    have hsome : ¬(Field.ofKey? key).isNone = true :=
      List.filter_eq_nil_iff.1 hknown key (List.mem_map_of_mem (List.mem_of_mem_filter hmem))
    obtain ⟨f, hf⟩ : ∃ f, Field.ofKey? key = some f :=
      Option.ne_none_iff_exists'.1 fun hnone => hsome (by rw [hnone]; rfl)
    obtain rfl := Field.key_of_ofKey? hf
    exact ⟨f, by cases f <;> decide, by rw [(source?_eq_some_iff hkeys).2 hmem]; rfl⟩
  · rintro ⟨f, -, hf⟩
    obtain ⟨e', he', heq⟩ := Option.map_eq_some_iff.1 hf
    cases heq
    exact (source?_eq_some_iff hkeys).1 he'

/-! ### Strategies -/

theorem noteUnknown_eq_pure {u : Unit} (h : noteUnknown ks = pure u) : unknownKeys ks = [] := by
  unfold noteUnknown at h
  split at h
  · next hknown => exact hknown
  · exact absurd (eq_pure_iff.1 h).1 (List.cons_ne_nil _ _)

/-- **Keyword arguments that come to a strategy without a note** are restated by it, whatever
the defaults. -/
theorem checkKeywords_eq_pure {today : Date} (hkeys : (ks.map (·.1)).Nodup)
    (h : checkKeywords defaults today ks = pure s) :
    Expr.RestatedStrategy (.call Constructor.strategy.name [] ks) s.toExpr ∧
      ∀ other, checkKeywords other today ks = pure s := by
  obtain ⟨ticker, hticker, h⟩ := bind_eq_pure.1 h
  obtain ⟨settings, hsettings, h⟩ := bind_eq_pure.1 h
  obtain ⟨_, hunknown, h⟩ := bind_eq_pure.1 h
  obtain ⟨hreads, hsettings'⟩ := checkFields_eq_pure hsettings
  obtain ⟨buy, sell, hbuy, hsell, hpresent, hlt, rfl⟩ := ofSettings_eq_pure.1 h
  have hcomplete : Settings.Complete ⟨ticker, today⟩ ks settings := ⟨hreads, hpresent⟩
  have hkeyword : keyword? ks .ticker = some (.quoted ticker) := by
    obtain ⟨e, he, hplain⟩ := Option.map_eq_some_iff.1 (checkTicker_eq_pure.1 hticker)
    rw [he, Plain.eq_quoted_of_ticker hplain]
  refine ⟨?_, fun other => bind_eq_pure.2 ⟨ticker, ?_, bind_eq_pure.2 ⟨settings, ?_,
    bind_eq_pure.2 ⟨_, hunknown, ?_⟩⟩⟩⟩
  · have hcases := restated_cases hkeyword hreads rfl fun f hf =>
      expr?_assemble hcomplete defaults hbuy hsell hf
    rw [toExpr, ← Constructor.written_of_category (by decide), keywords_eq]
    refine .intro ?_ (arguments_perm hkeys (noteUnknown_eq_pure hunknown)) ?_
      (restatedArguments_of_cases hcases Field.all)
    · rw [Field.slots_strategy]
      exact List.filter_sublist.map _
    · refine List.mem_filterMap.2 ⟨.ticker, by decide, ?_⟩
      rw [source?, hkeyword]
      rfl
  · exact checkTicker_eq_pure.2 (checkTicker_eq_pure.1 hticker)
  · exact hsettings' other
  · have hsame := assemble_congr hcomplete buy sell defaults other
    exact ofSettings_eq_pure.2 ⟨buy, sell, hbuy, hsell, hpresent, hsame ▸ hlt, hsame⟩

theorem checkArguments_eq_pure {today : Date} {args : List Expr} :
    checkArguments defaults today args ks = pure s ↔
      args = [] ∧ checkKeywords defaults today ks = pure s := by
  unfold checkArguments
  dsimp only
  split
  · next hargs =>
    exact ⟨fun h => ⟨List.isEmpty_iff.1 hargs, h⟩, fun h => h.2⟩
  · next hargs =>
    refine ⟨fun h => absurd h note_bind_ne_pure, ?_⟩
    rintro ⟨rfl, -⟩
    exact absurd rfl hargs

/-- **A text that is checked without a note** is restated by its strategy, whatever the
defaults. -/
theorem check_eq_pure {source : String} {today : Date} (h : check source defaults today = pure s) :
    (∃ root, Expr.parse source = .ok root ∧ Expr.RestatedStrategy root s.toExpr) ∧
      ∀ other, check source other today = pure s := by
  unfold check checkExpr at h ⊢
  split at h
  · exact absurd h fail_ne_pure
  · next root hparse =>
    split at h
    · exact absurd h fail_ne_pure
    · split at h
      · next callee args ks _ =>
        split at h
        · next hcallee =>
          subst hcallee
          obtain ⟨rfl, h⟩ := checkArguments_eq_pure.1 h
          have hkeys : (ks.map (·.1)).Nodup :=
            Expr.keysDistinct_of_parse hparse _ (List.mem_of_mem_head? (Expr.head?_subterms _))
          obtain ⟨hrestated, hother⟩ := checkKeywords_eq_pure hkeys h
          exact ⟨⟨_, hparse, hrestated⟩, fun other =>
            (if_pos rfl).trans (checkArguments_eq_pure.2 ⟨rfl, hother other⟩)⟩
        · exact absurd h fail_ne_pure
      · exact absurd h fail_ne_pure

end Strategy

/-! ### Outcomes -/

theorem Outcome.changes_ofCheck {v : StrategyCheck Strategy} {s : Strategy}
    (hs : (Outcome.ofCheck v).strategy = some s) :
    (Outcome.ofCheck v).changes.isEmpty = true ↔ v = pure s := by
  have hresult := Outcome.strategy_ofCheck.1 hs
  have hchanges : (Outcome.ofCheck v).changes =
      Changelog.ofMessages (v.notes.map fun r => (r.key, r.message)) := by
    rw [Outcome.ofCheck, hresult]
  rw [hchanges, Changelog.isEmpty_ofMessages, List.map_eq_nil_iff, eq_pure_iff]
  exact (and_iff_left hresult).symm

/-- A text is trusted if it is accepted without a change under the standard defaults. -/
theorem Strategy.ofTrusted_eq_ok {text : String} {today : Date} {s : Strategy} :
    Strategy.ofTrusted text today = .ok s ↔ Strategy.check text .standard today = pure s := by
  constructor
  · intro h
    unfold Strategy.ofTrusted at h
    dsimp only at h
    split at h
    · cases h
    · next hs =>
      split at h
      · next hchanges =>
        cases h
        exact (Outcome.changes_ofCheck hs).1 hchanges
      · cases h
  · intro h
    rw [Strategy.ofTrusted, validate, h]
    rfl

/-- **No repair is silent.** If a text is accepted as a strategy and no change is recorded, then
what was read from the text is the canonical expression of the strategy in other words, so that
no call in it was dropped; that is the expression of the canonical text; and no default was used,
so the outcome is the same with any others. Such texts, and no others, are trusted. Conversely, if
the text says something else than the strategy, or if the outcome depends on the defaults, then a
change is recorded. -/
theorem validate_unchanged {source : String} {defaults : Defaults} {today : Date} {s : Strategy}
    (h : (validate source defaults today).strategy = some s) :
    ((validate source defaults today).changes.isEmpty = true →
      (∃ root, Expr.parse source = .ok root ∧ Expr.RestatedStrategy root s.toExpr ∧
        root.calls.Perm s.toExpr.calls) ∧
      Expr.parse (validate source defaults today).sanitized = .ok s.toExpr ∧
      ∀ other, validate source other today = validate source defaults today) ∧
    ((validate source defaults today).changes.isEmpty = true ↔
      Strategy.ofTrusted source today = .ok s) ∧
    ((∀ root, Expr.parse source = .ok root → ¬Expr.RestatedStrategy root s.toExpr) ∨
      (∃ other, validate source other today ≠ validate source defaults today) →
        (validate source defaults today).changes.isEmpty = false) := by
  have hunchanged : (validate source defaults today).changes.isEmpty = true →
      (∃ root, Expr.parse source = .ok root ∧ Expr.RestatedStrategy root s.toExpr) ∧
        ∀ other, Strategy.check source other today = pure s := fun hchanges =>
    Strategy.check_eq_pure ((Outcome.changes_ofCheck h).1 hchanges)
  have hsame : (∀ other, Strategy.check source other today = pure s) →
      ∀ other, validate source other today = validate source defaults today := by
    intro hother other
    rw [validate, validate, hother other, hother defaults]
  refine ⟨fun hchanges => ?_, ⟨fun hchanges => ?_, fun htrusted => ?_⟩, fun hnot => ?_⟩
  · obtain ⟨hrestated, hother⟩ := hunchanged hchanges
    -- The standard defaults are in range, so what comes out under them can be read again.
    have hstandard := (eq_pure_iff.1 (hother .standard)).2
    have hparse := Strategy.parse_text
      (Strategy.inRange_of_check Defaults.inRange_standard hstandard)
      (Strategy.depth_of_check Defaults.inRange_standard hstandard)
    refine ⟨?_, ?_, hsame hother⟩
    · obtain ⟨root, hroot, hrestated⟩ := hrestated
      exact ⟨root, hroot, hrestated, hrestated.calls_perm⟩
    · rwa [Outcome.sanitized, h]
  · exact Strategy.ofTrusted_eq_ok.2 ((hunchanged hchanges).2 .standard)
  · obtain ⟨-, hother⟩ := Strategy.check_eq_pure (Strategy.ofTrusted_eq_ok.1 htrusted)
    exact (Outcome.changes_ofCheck h).2 (hother defaults)
  · refine Bool.eq_false_iff.2 fun hchanges => ?_
    obtain ⟨⟨root, hparse, hrestated⟩, hother⟩ := hunchanged hchanges
    rcases hnot with hnot | ⟨other, hne⟩
    · exact hnot root hparse hrestated
    · exact hne (hsame hother other)

/-- A strategy in other words: keywords in another order, arguments by position, integers for
numbers, a retracement level as its ratio, a date without its zeros, series without a ticker,
and an explicit `None`. -/
def restating : String :=
  "Strategy(ticker='A', stop_loss=None, start_date='2024-1-5', order_size=USD(5), " ++
    "initial_capital=1, interval=Interval.ONE_DAY, position_type=PositionType.LONG, " ++
    "buy_condition=OR(LessThanCondition(OBV(), CONST(1))), " ++
    "sell_condition=LessThanCondition(FIB_RETRACEMENT(length=3, level=0.5), OBV('B')))"

/-- Such a text is accepted without a change. -/
theorem validate_unchanged_restating :
    ∃ s, (validate restating .standard ⟨2024, 2, 29, by decide⟩).strategy = some s ∧
      (validate restating .standard ⟨2024, 2, 29, by decide⟩).changes.isEmpty = true ∧
      (∃ root, Expr.parse restating = .ok root ∧ Expr.RestatedStrategy root s.toExpr ∧
        root.calls.Perm s.toExpr.calls) ∧
      (∀ other, validate restating other ⟨2024, 2, 29, by decide⟩ =
        validate restating .standard ⟨2024, 2, 29, by decide⟩) ∧
      Strategy.ofTrusted restating ⟨2024, 2, 29, by decide⟩ = .ok s := by
  have hok : (Strategy.ofTrusted restating ⟨2024, 2, 29, by decide⟩).isOk = true := by
    decide +kernel
  obtain ⟨s, hs⟩ : ∃ s, Strategy.ofTrusted restating ⟨2024, 2, 29, by decide⟩ = .ok s := by
    cases h : Strategy.ofTrusted restating ⟨2024, 2, 29, by decide⟩ with
    | error fault =>
      rw [h] at hok
      cases hok
    | ok s => exact ⟨s, rfl⟩
  have hstrategy : (validate restating .standard ⟨2024, 2, 29, by decide⟩).strategy = some s := by
    rw [validate, Strategy.ofTrusted_eq_ok.1 hs]
    rfl
  obtain ⟨hunchanged, htrusted, -⟩ := validate_unchanged hstrategy
  have hchanges := htrusted.2 hs
  obtain ⟨hrestated, -, hother⟩ := hunchanged hchanges
  exact ⟨s, hstrategy, hchanges, hrestated, hother, hs⟩

end TradeSignals
