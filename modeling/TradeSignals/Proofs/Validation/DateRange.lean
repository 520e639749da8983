import TradeSignals.CommandLine.Execution
import TradeSignals.Proofs.Validation.Keywords

/-!
# The days of a run

A strategy is run from its first day to its last day, and the defaults stand in where it has none.
Validation sees to it that two dates are in order, whether they were written or took the place of
something that is no date; but a date that is not written at all gets its default only when the
strategy is run. So the days of a run are in order, unless one date is written and not the other,
and the default for the other one lies on the wrong side of it
(`TradeSignals.Strategy.days_inOrder_iff`).
-/

namespace TradeSignals

open Verdict

namespace Strategy

variable {cx : Context} {defaults : Defaults} {today : Date} {ks : List (String × Expr)}
  {settings : Settings} {source : String} {s : Strategy}

/-- What is accepted is written as a strategy. -/
theorem exists_isCall (h : (validate source defaults today).strategy = some s) :
    ∃ args ks, IsCall source args ks := by
  rw [validate, Outcome.strategy_ofCheck, check] at h
  split at h
  · cases h
  · next root hparse =>
    rw [checkExpr.eq_def] at h
    split at h
    · cases h
    · next hallowed =>
      split at h
      · next callee args ks =>
        split at h
        · next hcallee =>
          subst hcallee
          exact ⟨args, ks, hparse, DeniedName.find?_eq_none_iff.1 hallowed⟩
        · cases h
      · cases h

/-! ### One date -/

/-- The date that is used for one that is written: the default, if it is none. -/
def usedDate (today default : Date) (e : Expr) : Date := (Plain.date today e).toOption.getD default

theorem le_usedDate_iff {today default day : Date} {e : Expr} (h : day ≤ default) :
    day ≤ usedDate today default e ↔ ¬∃ d, Plain.date today e = .ok d ∧ d < day := by
  rw [usedDate]
  cases Plain.date today e with
  | error fault => exact iff_of_true h (by simp)
  | ok d => simp [Except.toOption, Date.not_lt]

theorem usedDate_le_iff {today default day : Date} {e : Expr} (h : default ≤ day) :
    usedDate today default e ≤ day ↔ ¬∃ d, Plain.date today e = .ok d ∧ day < d := by
  rw [usedDate]
  cases Plain.date today e with
  | error fault => exact iff_of_true h (by simp)
  | ok d => simp [Except.toOption, Date.not_lt]

/-- A date of a strategy comes from its own keyword. -/
theorem resultOf_date {f : Field} (hf : f.tag = .date) (cx : Context) (e : Expr) :
    resultOf cx f e = (Plain.date cx.today e).map Value.date := by
  have htag : f.slot.tag = .date := hf
  rw [resultOf, Reading.parameter, htag, Reading.value, Reading.expr_of]
  cases Plain.date cx.today e <;> rfl

/-- **A date of a strategy** is there if its keyword is. -/
theorem dateOf_eq_map {f : Field} {default : Date} (hf : f.tag = .date)
    (h : (checkFields cx defaults ks).result = .ok settings) (hdefault : default ≤ cx.today) :
    dateOf cx settings f default = (keyword? ks f).map (usedDate cx.today default) := by
  have hticker : f ≠ .ticker := by
    rintro rfl
    cases hf
  have hlookup := (checkFields_eq_ok h).1 f hticker
  rcases hkeyword : keyword? ks f with _ | e
  · rw [hkeyword] at hlookup
    simp only [dateOf, given?, wasRefused, hlookup, Option.map_none]
    rfl
  · rw [hkeyword, Option.map_some, resultOf_date hf] at hlookup
    have husable : Defaults.usable? cx.today default = some default := if_pos hdefault
    simp only [dateOf, given?, wasRefused, hlookup, usedDate, Option.map_some, husable]
    cases Plain.date cx.today e <;> rfl

/-! ### Both dates -/

/-- The defaults take the place of two dates that are not in order, if they can. -/
theorem usableRange?_eq_some (hdefaults : defaults.startDate < defaults.endDate)
    (htoday : defaults.endDate ≤ cx.today) :
    usableRange? cx defaults = some (defaults.startDate, defaults.endDate) := by
  have hstart : Defaults.usable? cx.today defaults.startDate = some defaults.startDate :=
    if_pos (Date.le_trans (Date.le_of_lt hdefaults) htoday)
  have hend : Defaults.usable? cx.today defaults.endDate = some defaults.endDate := if_pos htoday
  rw [usableRange?, hstart, hend]
  exact if_pos hdefaults

/-- **The dates of a strategy that is accepted** are those that are written, put in order. -/
theorem dates_of_checkKeywords (hdefaults : defaults.startDate < defaults.endDate)
    (htoday : defaults.endDate ≤ today) (h : (checkKeywords defaults today ks).result = .ok s) :
    (s.startDate, s.endDate) = datesInOrder ⟨tickerOf defaults ks, today⟩ defaults
      ((keyword? ks .startDate).map (usedDate today defaults.startDate))
      ((keyword? ks .endDate).map (usedDate today defaults.endDate)) := by
  obtain ⟨settings, hsettings, h⟩ := checkKeywords_eq_ok.1 h
  obtain ⟨buy, sell, -, -, rfl⟩ := result_ofSettings_eq_ok.1 h
  have hstart := Date.le_trans (Date.le_of_lt hdefaults) htoday
  rw [← dateOf_eq_map rfl hsettings hstart, ← dateOf_eq_map rfl hsettings htoday]
  rfl

/-! ### The days -/

/-- **A stray date:** one of the two dates is written and can be used, the other one is not
written, and the default for the other one lies on the wrong side of it. -/
inductive StrayDate (defaults : Defaults) (today : Date) (ks : List (String × Expr)) : Prop
  /-- The first day comes after the last day that is the default. -/
  | first {e : Expr} {day : Date} : keyword? ks .startDate = some e →
      keyword? ks .endDate = none → Plain.date today e = .ok day → defaults.endDate < day →
      StrayDate defaults today ks
  /-- The last day comes before the first day that is the default. -/
  | last {e : Expr} {day : Date} : keyword? ks .startDate = none →
      keyword? ks .endDate = some e → Plain.date today e = .ok day → day < defaults.startDate →
      StrayDate defaults today ks

theorem strayDate_iff_first {e : Expr} (hfirst : keyword? ks .startDate = some e)
    (hlast : keyword? ks .endDate = none) : StrayDate defaults today ks ↔
      ∃ day, Plain.date today e = .ok day ∧ defaults.endDate < day := by
  constructor
  · rintro (⟨he, -, hday, hlt⟩ | ⟨hnone, -, -, -⟩)
    · obtain rfl := Option.some.inj (hfirst.symm.trans he)
      exact ⟨_, hday, hlt⟩
    · rw [hfirst] at hnone
      cases hnone
  · rintro ⟨day, hday, hlt⟩
    exact .first hfirst hlast hday hlt

theorem strayDate_iff_last {e : Expr} (hfirst : keyword? ks .startDate = none)
    (hlast : keyword? ks .endDate = some e) : StrayDate defaults today ks ↔
      ∃ day, Plain.date today e = .ok day ∧ day < defaults.startDate := by
  constructor
  · rintro (⟨-, hnone, -, -⟩ | ⟨-, he, hday, hlt⟩)
    · rw [hlast] at hnone
      cases hnone
    · obtain rfl := Option.some.inj (hlast.symm.trans he)
      exact ⟨_, hday, hlt⟩
  · rintro ⟨day, hday, hlt⟩
    exact .last hfirst hlast hday hlt

/-- Two dates that are both written, or both not, are not stray. -/
theorem not_strayDate (h : (keyword? ks .startDate).isSome = (keyword? ks .endDate).isSome) :
    ¬StrayDate defaults today ks := by
  rintro (⟨hsome, hnone, -, -⟩ | ⟨hnone, hsome, -, -⟩) <;>
    · rw [hsome, hnone] at h
      cases h

/-- **The days of a run are in order**, whichever of the two dates are written, and whether what is
written is no date, lies in the future, or gives way to a default; unless one of them is stray. -/
theorem days_inOrder_iff (hdefaults : defaults.startDate < defaults.endDate)
    (htoday : defaults.endDate ≤ today)
    (h : (validate source defaults today).strategy = some s) :
    ∃ args ks, IsCall source args ks ∧
      ((Command.days defaults s).1 ≤ (Command.days defaults s).2 ↔
        ¬StrayDate defaults today ks) := by
  obtain ⟨args, ks, hcall⟩ := exists_isCall h
  refine ⟨args, ks, hcall, ?_⟩
  have hdates := dates_of_checkKeywords hdefaults htoday (hcall.strategy_eq_some_iff.1 h)
  have hdays : ∀ {start finish}, (s.startDate, s.endDate) = (start, finish) →
      Command.days defaults s = (start.getD defaults.startDate, finish.getD defaults.endDate) := by
    rintro _ _ ⟨⟩
    rfl
  rcases hfirst : keyword? ks .startDate with _ | e <;>
    rcases hlast : keyword? ks .endDate with _ | e' <;>
    rw [hfirst, hlast] at hdates
  · -- The defaults are in order.
    rw [hdays hdates]
    exact iff_of_true (Date.le_of_lt hdefaults) (not_strayDate (by rw [hfirst, hlast]))
  · rw [hdays hdates, strayDate_iff_last hfirst hlast]
    exact le_usedDate_iff (Date.le_of_lt hdefaults)
  · rw [hdays hdates, strayDate_iff_first hfirst hlast]
    exact usedDate_le_iff (Date.le_of_lt hdefaults)
  · -- Two dates that are out of order give way to the defaults.
    refine iff_of_true ?_ (not_strayDate (by rw [hfirst, hlast]; rfl))
    simp only [Option.map_some, datesInOrder] at hdates
    split at hdates
    · next hlt =>
      rw [hdays hdates]
      exact Date.le_of_lt hlt
    · rw [usableRange?_eq_some hdefaults htoday] at hdates
      rw [hdays hdates]
      exact Date.le_of_lt hdefaults

/-- Are both dates written? -/
def writesBothDates : Expr → Bool
  | .call _ _ ks => (keyword? ks .startDate).isSome && (keyword? ks .endDate).isSome
  | _ => false

/-- Two days that are not in order: the first one is written, and the last one is no date. -/
def misdated : String :=
  "Strategy(ticker='A', buy_condition=LessThanCondition(OBV(), CONST(1)), " ++
    "sell_condition=LessThanCondition(OBV(), CONST(1)), start_date='2024-02-01', end_date='?')"

/-- The default for the last day comes before the first day, so both defaults are used. -/
theorem days_inOrder_iff_misdated : Defaults.standard.startDate < Defaults.standard.endDate ∧
    Defaults.standard.endDate ≤ (⟨2024, 6, 1, by decide⟩ : Date) ∧
    ∃ s, (validate misdated .standard ⟨2024, 6, 1, by decide⟩).strategy = some s ∧
      (Command.days .standard s).1 ≤ (Command.days .standard s).2 := by
  have hdefaults : Defaults.standard.startDate < Defaults.standard.endDate := by decide
  have htoday : Defaults.standard.endDate ≤ (⟨2024, 6, 1, by decide⟩ : Date) := by decide
  have hsome : (validate misdated .standard ⟨2024, 6, 1, by decide⟩).strategy.isSome = true := by
    decide +kernel
  obtain ⟨s, hs⟩ := Option.isSome_iff_exists.1 hsome
  obtain ⟨args, ks, hcall, hiff⟩ := days_inOrder_iff hdefaults htoday hs
  have hwritten : (Expr.parse misdated).toOption.map writesBothDates = some true := by
    decide +kernel
  rw [hcall.parse] at hwritten
  refine ⟨hdefaults, htoday, s, hs, hiff.2 (not_strayDate ?_)⟩
  obtain ⟨hfirst, hlast⟩ := Bool.and_eq_true_iff.1 (Option.some.inj hwritten)
  rw [hfirst, hlast]

/-- A first day after the default for the last day, which is not written. -/
def lateStart : String :=
  "Strategy(ticker='A', buy_condition=LessThanCondition(OBV(), CONST(1)), " ++
    "sell_condition=LessThanCondition(OBV(), CONST(1)), start_date='2024-02-01')"

/-- **The days of a run may be out of order:** a first day that is written by itself is kept, and
the default for the last day comes before it. -/
theorem days_outOfOrder : Ticker.isValid Defaults.standard.ticker = true ∧
    Defaults.standard.startDate < Defaults.standard.endDate ∧
    Defaults.standard.endDate ≤ (⟨2024, 6, 1, by decide⟩ : Date) ∧
    ∃ s, (validate lateStart .standard ⟨2024, 6, 1, by decide⟩).strategy = some s ∧
      ¬(Command.days .standard s).1 ≤ (Command.days .standard s).2 := by
  have hlate : ((validate lateStart .standard ⟨2024, 6, 1, by decide⟩).strategy.map fun s =>
      decide ((Command.days .standard s).1 ≤ (Command.days .standard s).2)) = some false := by
    decide +kernel
  obtain ⟨s, hs, hnot⟩ := Option.map_eq_some_iff.1 hlate
  exact ⟨by decide, by decide, by decide, s, hs, of_decide_eq_false hnot⟩

end Strategy

end TradeSignals
