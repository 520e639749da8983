import TradeSignals.Proofs.Calendar.DateText
import TradeSignals.Proofs.Validation.Accepted
import TradeSignals.Proofs.Validation.Exact
import TradeSignals.Validation.Trusted

/-!
# Validation is idempotent

The canonical text of a strategy in range is validated without a change, and it is validated
as that strategy: `TradeSignals.Strategy.check_text`. The defaults do not matter then, since
nothing is missing and nothing is refused. As whatever is accepted is in range, the text that
comes out of a validation is trusted from that day on, under all defaults
(`TradeSignals.validate_sanitized`).

The parts that meet here are the writer and the reader of expressions, the search for denied
names, and the check of each parameter. What is new is only that a strategy writes each of
its parameters once, in order, and that every part of the strategy is taken from its
parameter again.
-/

namespace TradeSignals

open Reading

namespace Strategy

variable {s : Strategy} {cx : Context} {defaults : Defaults} {settings : Settings}

/-! ### Parameters -/

/-- The value that a parameter is read as, if it is written. -/
def value? (s : Strategy) : Field → Option Value
  | .ticker => some (.ticker s.ticker)
  | .positionType => some (.positionType s.positionType)
  | .buyCondition => some (.condition s.buyCondition)
  | .sellCondition => some (.condition s.sellCondition)
  | .startDate => s.startDate.map .date
  | .endDate => s.endDate.map .date
  | .stopLoss => s.stopLoss.map fun x => .stopLoss (some x)
  | .takeProfit => s.takeProfit.map fun x => .takeProfit (some x)
  | .interval => some (.interval s.interval)
  | .period => s.period.map .period
  | .initialCapital => some (.float s.initialCapital)
  | .orderSize => some (.orderSize s.orderSize)
  | .tradeCommissions => s.tradeCommissions.map fun x => .commission (some x)

theorem exact_date {slot : Slot} {d : Date} (hslot : slot.tag = .date) (hd : d ≤ cx.today) :
    Exact cx .strategy slot (dateExpr d) (.date d) := by
  refine exact_of_value ?_ rfl
  have hplain : Plain.date cx.today (dateExpr d) = .ok d := by
    change (Plain.dateOf d.text >>= fun d => if cx.today < d then _ else _) = Except.ok d
    rw [Plain.dateOf, Date.read_text]
    exact if_neg (Int.not_lt.2 hd)
  rw [hslot]
  change Verdict.ofResult (Value.date <$> Plain.date cx.today (of cx (dateExpr d)).expr) = _
  rw [expr_of, hplain]
  rfl

theorem exact_ticker {slot : Slot} (hslot : slot.tag = .ticker) {t : String}
    (ht : Ticker.isValid t = true) : Exact cx .strategy slot (.quoted t) (.ticker t) := by
  refine exact_of_value ?_ rfl
  rw [hslot]
  show Verdict.ofResult (Value.ticker <$> Plain.ticker (of cx (.quoted t)).expr) = _
  rw [expr_of, Plain.ticker, if_pos ht]
  rfl

/-- A parameter is **read back** if it is left out, or written as an expression that is
read as its value. -/
def ReadsBack (s : Strategy) (cx : Context) (f : Field) : Prop :=
  s.expr? f = none ∧ s.value? f = none ∨
    ∃ e v, s.expr? f = some e ∧ s.value? f = some v ∧ Exact cx .strategy f.slot e v

theorem ReadsBack.of_exact {f : Field} {e : Expr} {v : Value} (he : s.expr? f = some e)
    (hv : s.value? f = some v) (h : Exact cx .strategy f.slot e v) : s.ReadsBack cx f :=
  .inr ⟨e, v, he, hv, h⟩

/-- A parameter that may be left out is read back if what it may hold is. -/
theorem ReadsBack.of_map {α : Type} {f : Field} {o : Option α} {toExpr : α → Expr}
    {toValue : α → Value} (he : s.expr? f = o.map toExpr) (hv : s.value? f = o.map toValue)
    (h : ∀ a, o = some a → Exact cx .strategy f.slot (toExpr a) (toValue a)) :
    s.ReadsBack cx f := by
  cases o with
  | none => exact .inl ⟨he, hv⟩
  | some a => exact .of_exact he hv (h a rfl)

/-- **Each parameter of a strategy in range is read as its value.** -/
theorem readsBack (h : s.InRange cx.today) (f : Field) : s.ReadsBack cx f := by
  cases f with
  | ticker => exact .of_exact rfl rfl (exact_ticker rfl h.ticker)
  | positionType =>
    refine .of_exact rfl rfl (exact_choice rfl (fun _ => rfl) ?_ rfl)
    cases s.positionType <;> decide
  | buyCondition =>
    exact .of_exact rfl rfl (exact_condition rfl (Condition.check_toExpr cx h.buyCondition))
  | sellCondition =>
    exact .of_exact rfl rfl (exact_condition rfl (Condition.check_toExpr cx h.sellCondition))
  | startDate => exact .of_map rfl rfl fun d hs => exact_date rfl (h.startDate d hs)
  | endDate => exact .of_map rfl rfl fun d hs => exact_date rfl (h.endDate d hs)
  | stopLoss =>
    exact .of_map rfl rfl fun x hs =>
      exact_of_read rfl (StopLoss.check_toExpr cx (h.stopLoss x hs)) rfl
  | takeProfit =>
    exact .of_map rfl rfl fun x hs =>
      exact_of_read rfl (TakeProfit.check_toExpr cx (h.takeProfit x hs)) rfl
  | interval =>
    refine .of_exact rfl rfl (exact_choice rfl (fun _ => rfl) ?_ rfl)
    cases s.interval <;> decide
  | period =>
    refine .of_map rfl rfl fun p _ => exact_choice rfl (fun _ => rfl) ?_ rfl
    cases p <;> decide
  | initialCapital =>
    exact .of_exact rfl rfl
      (exact_float rfl h.initialCapital.1 (within_aboveZero h.initialCapital.2))
  | orderSize =>
    exact .of_exact rfl rfl (exact_of_read rfl (OrderSize.check_toExpr cx h.orderSize) rfl)
  | tradeCommissions =>
    exact .of_map rfl rfl fun x hs =>
      exact_of_read rfl (Commission.check_toExpr cx (h.tradeCommissions x hs)) rfl

theorem checkField_exact {f : Field} {e : Expr} {v : Value}
    (h : Exact cx .strategy f.slot e v) : checkField cx defaults f e = pure (.ok v) := by
  rw [checkField, h.parameter_eq]
  rfl

/-! ### Settings -/

/-- What the parameters of a strategy come to, the ticker left out. -/
def settingsOf (s : Strategy) (fs : List Field) : Settings :=
  (fs.filter (· ≠ .ticker)).filterMap fun f => (s.value? f).map fun v => (f, .ok v)

/-- **The parameters of a strategy in range** come to their values, without a change. -/
theorem checkFields_exact (h : s.InRange cx.today) (fs : List Field) :
    checkFields cx defaults (fs.filterMap fun f => (s.expr? f).map (f.key, ·)) =
      pure (settingsOf s fs) := by
  induction fs with
  | nil => rfl
  | cons f fs ih =>
    rcases readsBack h f with ⟨he, hv⟩ | ⟨e, v, he, hv, hexact⟩
    · rw [List.filterMap_cons_none (by rw [he]; rfl), ih, settingsOf, settingsOf,
        List.filter_cons]
      split
      · rw [List.filterMap_cons_none (by rw [hv]; rfl)]
      · rfl
    · rw [List.filterMap_cons_some (b := (f.key, e)) (by rw [he]; rfl), checkFields,
        Field.ofKey?_key, settingsOf, List.filter_cons]
      -- The ticker is read on its own, before all other parameters.
      by_cases hf : f = .ticker
      · subst hf
        dsimp only
        rw [ih]
        rfl
      · have hcheck : checkField cx defaults f e = pure (.ok v) := checkField_exact hexact
        rw [if_pos (decide_eq_true hf),
          List.filterMap_cons_some (b := (f, .ok v)) (by rw [hv]; rfl)]
        cases f with
        | ticker => exact absurd rfl hf
        | _ =>
          dsimp only
          rw [hcheck, pure_bind, ih, pure_bind]
          rfl

theorem lookup_filterMap {β : Type} (g : Field → Option β) (fs : List Field) (f : Field) :
    (fs.filterMap fun f => (g f).map (f, ·)).lookup f = if f ∈ fs then g f else none := by
  induction fs with
  | nil => rfl
  | cons a fs ih =>
    by_cases hf : f = a
    · subst hf
      rw [if_pos List.mem_cons_self]
      cases hg : g f with
      | none =>
        rw [List.filterMap_cons_none (by rw [hg]; rfl), ih, hg]
        split <;> rfl
      | some b =>
        rw [List.filterMap_cons_some (b := (f, b)) (by rw [hg]; rfl), List.lookup_cons_self]
    · have hmem : f ∈ a :: fs ↔ f ∈ fs := by
        rw [List.mem_cons, or_iff_right hf]
      simp only [hmem, ← ih]
      cases hg : g a with
      | none => rw [List.filterMap_cons_none (by rw [hg]; rfl)]
      | some b =>
        rw [List.filterMap_cons_some (b := (a, b)) (by rw [hg]; rfl), List.lookup_cons,
          beq_eq_false_iff_ne.2 hf]

theorem lookup_settingsOf {f : Field} (hf : f ≠ .ticker) :
    (settingsOf s Field.all).lookup f = (s.value? f).map .ok := by
  have hmem : f ∈ Field.all.filter (· ≠ .ticker) := by
    revert hf
    cases f <;> decide
  have h := lookup_filterMap (fun f => (s.value? f).map (Except.ok : Value → Except Fault Value))
    (Field.all.filter (· ≠ .ticker)) f
  rw [if_pos hmem] at h
  rw [← h, settingsOf]
  congr 2
  funext f
  cases s.value? f <;> rfl

theorem given?_settingsOf {f : Field} (hf : f ≠ .ticker) :
    given? (settingsOf s Field.all) f = s.value? f := by
  rw [given?, lookup_settingsOf hf]
  cases s.value? f <;> rfl

theorem wasRefused_settingsOf {f : Field} (hf : f ≠ .ticker) :
    wasRefused (settingsOf s Field.all) f = false := by
  rw [wasRefused, lookup_settingsOf hf]
  cases s.value? f <;> rfl

/-! ### Strategies -/

theorem noteMissing_exact {f : Field} (hf : f ≠ .ticker) {v : Value} (hv : s.value? f = some v) :
    noteMissing cx defaults (settingsOf s Field.all) f = pure () := by
  rw [noteMissing, lookup_settingsOf hf, hv]
  rfl

/-- Nothing is missing that has a default. -/
theorem noteMissing_all :
    defaulted.forM (noteMissing cx defaults (settingsOf s Field.all)) = pure () := by
  have hall : ∀ fs : List Field, (∀ f ∈ fs, noteMissing cx defaults (settingsOf s Field.all) f =
      pure ()) → fs.forM (noteMissing cx defaults (settingsOf s Field.all)) = pure () := by
    intro fs hfs
    induction fs with
    | nil => rfl
    | cons f fs ih =>
      rw [List.forM, hfs f List.mem_cons_self, pure_bind]
      exact ih fun g hg => hfs g (List.mem_cons_of_mem _ hg)
  refine hall defaulted ?_
  simp only [defaulted, List.forall_mem_cons]
  exact ⟨noteMissing_exact (by decide) rfl, noteMissing_exact (by decide) rfl,
    noteMissing_exact (by decide) rfl, noteMissing_exact (by decide) rfl, by simp⟩

theorem dateOf_exact {f : Field} (hf : f ≠ .ticker) {d : Option Date} {default : Date}
    (hv : s.value? f = d.map .date) : dateOf cx (settingsOf s Field.all) f default = d := by
  rw [dateOf, given?_settingsOf hf, hv, wasRefused_settingsOf hf]
  cases d <;> rfl

theorem checkDates_exact {start finish : Option Date}
    (h : ∀ d e, start = some d → finish = some e → d < e) :
    checkDates cx defaults start finish = pure (start, finish) := by
  unfold checkDates
  split
  · exact if_pos (h _ _ rfl rfl)
  · rfl

/-- Each part of a strategy is taken from its parameter. -/
theorem ofSettings_exact (h : s.InRange cx.today) (hticker : cx.ticker = s.ticker) :
    ofSettings cx defaults (settingsOf s Field.all) = pure s := by
  have hbuy : requireCondition (settingsOf s Field.all) .buyCondition = pure s.buyCondition := by
    rw [requireCondition, given?_settingsOf (by decide), value?]
  have hsell : requireCondition (settingsOf s Field.all) .sellCondition =
      pure s.sellCondition := by
    rw [requireCondition, given?_settingsOf (by decide), value?]
  have hstart : dateOf cx (settingsOf s Field.all) .startDate defaults.startDate = s.startDate :=
    dateOf_exact (by decide) rfl
  have hend : dateOf cx (settingsOf s Field.all) .endDate defaults.endDate = s.endDate :=
    dateOf_exact (by decide) rfl
  have hstop : stopLossOf (settingsOf s Field.all) = s.stopLoss := by
    rw [stopLossOf, given?_settingsOf (by decide), value?]
    cases s.stopLoss <;> rfl
  have hprofit : takeProfitOf (settingsOf s Field.all) = s.takeProfit := by
    rw [takeProfitOf, given?_settingsOf (by decide), value?]
    cases s.takeProfit <;> rfl
  have hperiod : periodOf (settingsOf s Field.all) = s.period := by
    rw [periodOf, given?_settingsOf (by decide), value?]
    cases s.period <;> rfl
  have hcommissions : tradeCommissionsOf (settingsOf s Field.all) = s.tradeCommissions := by
    rw [tradeCommissionsOf, given?_settingsOf (by decide), value?]
    cases s.tradeCommissions <;> rfl
  have hposition : positionTypeOf defaults (settingsOf s Field.all) = s.positionType := by
    rw [positionTypeOf, given?_settingsOf (by decide), value?]
  have hinterval : intervalOf defaults (settingsOf s Field.all) = s.interval := by
    rw [intervalOf, given?_settingsOf (by decide), value?]
  have hcapital : initialCapitalOf defaults (settingsOf s Field.all) = s.initialCapital := by
    rw [initialCapitalOf, given?_settingsOf (by decide), value?]
  have hsize : orderSizeOf defaults (settingsOf s Field.all) = s.orderSize := by
    rw [orderSizeOf, given?_settingsOf (by decide), value?]
  rw [ofSettings, hbuy, pure_bind, hsell, pure_bind, noteMissing_all, pure_bind, hstart, hend,
    checkDates_exact h.dates, pure_bind, hticker, hstop, hprofit, hperiod, hcommissions, hposition,
    hinterval, hcapital, hsize]

theorem noteUnknown_exact (s : Strategy) : noteUnknown s.keywords = pure () := by
  have hnone : unknownKeys s.keywords = [] := by
    rw [unknownKeys, List.filter_eq_nil_iff]
    intro key hkey
    rw [keywords_eq] at hkey
    obtain ⟨f, -, rfl⟩ := List.mem_map.1 ((keys_sublist s.expr? Field.all).subset hkey)
    rw [Field.ofKey?_key]
    exact Bool.false_ne_true
  rw [noteUnknown, hnone]

/-- The keyword arguments of a strategy in range are checked without a change. -/
theorem checkKeywords_exact {today : Date} (h : s.InRange today) :
    checkKeywords defaults today s.keywords = pure s := by
  have hticker : checkTicker defaults s.keywords = pure s.ticker := by
    have hquoted : (keyword? s.keywords .ticker).map Plain.ticker = some (.ok s.ticker) := by
      change some (Plain.ticker (.quoted s.ticker)) = _
      rw [Plain.ticker, if_pos h.ticker]
    rw [checkTicker, hquoted]
  have hfields : checkFields ⟨s.ticker, today⟩ defaults s.keywords =
      pure (settingsOf s Field.all) := by
    rw [keywords_eq]
    exact @checkFields_exact s ⟨s.ticker, today⟩ defaults h Field.all
  rw [checkKeywords, hticker, pure_bind, hfields, pure_bind, noteUnknown_exact, pure_bind]
  exact @ofSettings_exact s ⟨s.ticker, today⟩ defaults h rfl

/-- **The text of a strategy in range is validated as that strategy**, without a change. -/
theorem check_text {today : Date} (h : s.InRange today)
    (hdepth : s.toExpr.depth ≤ Expr.depthLimit) (defaults : Defaults) :
    check s.text defaults today = pure s := by
  have harguments : checkArguments defaults today [] s.keywords =
      checkKeywords defaults today s.keywords := rfl
  -- The text is read as the expression of the strategy, and no name in it is denied.
  rw [check, parse_text h hdepth]
  dsimp only
  rw [checkExpr.eq_def, find?_toExpr h]
  dsimp only [toExpr]
  rw [if_pos rfl, harguments, checkKeywords_exact h]

end Strategy

/-! ### Outcomes -/

/-- **Validation is idempotent, and what comes out of it is trusted.** If a text is accepted,
under defaults in range, as the strategy `s` with the canonical text `t`, then on the same day
or later, and under any defaults, `t` is accepted as `s` with the text `t` and no change. -/
theorem validate_sanitized {source t : String} {defaults : Defaults} {today : Date} {s : Strategy}
    (hd : defaults.InRange) (h : (validate source defaults today).strategy = some s)
    (ht : (validate source defaults today).sanitized = t) {later : Date} (hlater : today ≤ later) :
    (∀ other : Defaults, (validate t other later).strategy = some s ∧
      (validate t other later).changes = Changelog.empty ∧
      (validate t other later).sanitized = t) ∧ Strategy.ofTrusted t later = .ok s := by
  have hresult := Outcome.strategy_ofCheck.1 h
  have hrange := (Strategy.inRange_of_check hd hresult).mono hlater
  have hdepth := Strategy.depth_of_check hd hresult
  obtain rfl : s.text = t := by
    rw [← ht, Outcome.sanitized, h]
    rfl
  -- Whatever the defaults are, none of them is asked for.
  have hagain : ∀ other : Defaults, validate s.text other later = ⟨Changelog.empty, some s⟩ := by
    intro other
    rw [validate, Strategy.check_text hrange hdepth]
    rfl
  refine ⟨fun other => ?_, ?_⟩
  · rw [hagain other]
    exact ⟨rfl, rfl, rfl⟩
  · rw [Strategy.ofTrusted, hagain]
    rfl

/-- Such a text is repaired, and what comes out needs no repair on the next day. -/
theorem validate_sanitized_repairable : Defaults.standard.InRange ∧
    ∃ s, (validate repairable .standard ⟨2024, 2, 29, by decide⟩).strategy = some s ∧
      (validate repairable .standard ⟨2024, 2, 29, by decide⟩).changes.isEmpty = false ∧
      (∀ other, (validate s.text other ⟨2024, 3, 1, by decide⟩).strategy = some s) ∧
      Strategy.ofTrusted s.text ⟨2024, 3, 1, by decide⟩ = .ok s := by
  obtain ⟨s, hs⟩ := Option.isSome_iff_exists.1 isSome_validate_repairable
  have hsanitized :
      (validate repairable .standard ⟨2024, 2, 29, by decide⟩).sanitized = s.text := by
    rw [Outcome.sanitized, hs]
    rfl
  have h := @validate_sanitized repairable s.text .standard ⟨2024, 2, 29, by decide⟩ s
    Defaults.inRange_standard hs hsanitized ⟨2024, 3, 1, by decide⟩ (by decide)
  exact ⟨Defaults.inRange_standard, s, hs, by decide +kernel, fun other => (h.1 other).1, h.2⟩

end TradeSignals
