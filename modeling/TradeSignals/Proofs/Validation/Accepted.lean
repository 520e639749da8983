import TradeSignals.Proofs.Strategy.CanonicalText
import TradeSignals.Proofs.Validation.Sound
import TradeSignals.Validation.Outcome

/-!
# What is accepted is in range

Under defaults in range, a strategy that comes out of a validation is in range on the day of
the validation, whatever the text was (`TradeSignals.validate_inRange`), and its expression is
not too deep to be read again (`TradeSignals.Strategy.depth_of_check`).

What the parameters came to is sound because the readings of their arguments are. From there
on it is a matter of where each part of the strategy is taken from: a parameter, or the
default that stands in for it.
-/

namespace TradeSignals

open Verdict

namespace Strategy

variable {cx : Context} {defaults : Defaults} {settings : Settings} {n : ℕ}

/-! ### Settings -/

/-- Settings whose values are sound under their parameters. -/
def Settings.Sound (today : Date) (n : ℕ) (settings : Settings) : Prop :=
  ∀ f v, (f, .ok v) ∈ settings → v.Sound today (some .strategy) f.key n

theorem checkField_sound {f : Field} {e : Expr} {v : Value}
    (hcx : Ticker.isValid cx.ticker = true) (he : e.depth ≤ n)
    (h : (checkField cx defaults f e).result = .ok (.ok v)) :
    v.Sound cx.today (some .strategy) f.key n := by
  have hr : (Reading.of cx e).SoundWithin n :=
    ⟨Reading.sound_of hcx e, (Reading.expr_of cx e).symm ▸ he⟩
  obtain ⟨x, hx, h⟩ := result_bind_eq_ok.1 h
  cases x with
  | error fault =>
    dsimp only at h
    split at h
    · cases h
    · obtain ⟨-, -, h⟩ := result_bind_eq_ok.1 h
      cases h
  | ok value =>
    cases h
    suffices hparameter : ((Reading.of cx e).parameter cx (some .strategy) f.slot).result = .ok v by
      exact Reading.parameter_soundWithin hr hparameter
    cases hp : ((Reading.of cx e).parameter cx (some .strategy) f.slot).result with
    | error fault =>
      change Except.ok (Except.mapError id _) = _ at hx
      rw [hp] at hx
      cases hx
    | ok w =>
      change Except.ok (Except.mapError id _) = _ at hx
      rw [hp] at hx
      cases hx
      rfl

theorem checkFields_sound {ks : List (String × Expr)} (hcx : Ticker.isValid cx.ticker = true)
    (hks : ∀ ke ∈ ks, ke.2.depth ≤ n) (h : (checkFields cx defaults ks).result = .ok settings) :
    settings.Sound cx.today n := by
  -- The ticker was read before, and an unknown keyword comes to nothing.
  induction ks generalizing settings with
  | nil =>
    cases h
    exact fun _ _ hmem => nomatch hmem
  | cons ke ks ih =>
    have hrest := fun k hk => hks k (List.mem_cons_of_mem _ hk)
    unfold checkFields at h
    split at h
    · exact ih hrest h
    · exact ih hrest h
    · obtain ⟨setting, hsetting, h⟩ := result_bind_eq_ok.1 h
      obtain ⟨settings', hsettings', h⟩ := result_bind_eq_ok.1 h
      cases h
      intro f v hmem
      rcases List.mem_cons.1 hmem with heq | hmem
      · cases heq
        exact checkField_sound hcx (hks ke List.mem_cons_self) hsetting
      · exact ih hrest hsettings' f v hmem

theorem given?_sound {today : Date} {f : Field} {v : Value} (hs : settings.Sound today n)
    (h : given? settings f = some v) : v.Sound today (some .strategy) f.key n := by
  unfold given? at h
  split at h
  · next hl =>
    cases h
    obtain ⟨before, after, hsplit, -⟩ := List.lookup_eq_some_iff.1 hl
    refine hs f v ?_
    rw [hsplit]
    exact List.mem_append_right _ List.mem_cons_self
  · cases h

/-! ### Parts of a strategy -/

theorem requireCondition_sound {today : Date} {side : Field} {c : Condition}
    (hs : settings.Sound today n) (h : (requireCondition settings side).result = .ok c) :
    c.InRange ∧ c.toExpr.depth ≤ n := by
  unfold requireCondition at h
  split at h
  · next hgiven =>
    cases h
    exact given?_sound hs hgiven
  · cases h

theorem usable?_eq_some {today d e : Date} (h : Defaults.usable? today d = some e) :
    e ≤ today := by
  unfold Defaults.usable? at h
  split at h <;> cases h
  assumption

theorem dateOf_sound {f : Field} {default d : Date} (hs : settings.Sound cx.today n)
    (h : dateOf cx settings f default = some d) : d ≤ cx.today := by
  unfold dateOf at h
  split at h
  · next hgiven =>
    cases h
    exact given?_sound hs hgiven
  · split at h
    · exact usable?_eq_some h
    · cases h

theorem usableRange?_sound {s e : Date} (h : usableRange? cx defaults = some (s, e)) :
    s ≤ cx.today ∧ e ≤ cx.today ∧ s < e := by
  obtain ⟨start, hstart, h⟩ := Option.bind_eq_some_iff.1 h
  obtain ⟨finish, hfinish, h⟩ := Option.bind_eq_some_iff.1 h
  split at h <;> cases h
  exact ⟨usable?_eq_some hstart, usable?_eq_some hfinish, by assumption⟩

/-- The two dates are not after today, and in order. -/
theorem checkDates_sound {start finish : Option Date} {dates : Option Date × Option Date}
    (hstart : ∀ d, start = some d → d ≤ cx.today) (hfinish : ∀ d, finish = some d → d ≤ cx.today)
    (h : (checkDates cx defaults start finish).result = .ok dates) :
    (∀ d, dates.1 = some d → d ≤ cx.today) ∧ (∀ d, dates.2 = some d → d ≤ cx.today) ∧
      ∀ d e, dates.1 = some d → dates.2 = some e → d < e := by
  unfold checkDates at h
  split at h
  · next s e =>
    split at h
    · next hlt =>
      cases h
      refine ⟨hstart, hfinish, ?_⟩
      rintro _ _ ⟨⟩ ⟨⟩
      exact hlt
    · obtain ⟨-, -, h⟩ := result_bind_eq_ok.1 h
      cases h
      -- The defaults take the place of both dates, or there are none.
      cases hrange : usableRange? cx defaults with
      | none => exact ⟨fun _ h => (nomatch h), fun _ h => (nomatch h), fun _ _ h => (nomatch h)⟩
      | some range =>
        obtain ⟨hs, he, hlt⟩ := usableRange?_sound hrange
        refine ⟨?_, ?_, ?_⟩
        · rintro _ ⟨⟩
          exact hs
        · rintro _ ⟨⟩
          exact he
        · rintro _ _ ⟨⟩ ⟨⟩
          exact hlt
  · next hnot =>
    cases h
    refine ⟨hstart, hfinish, ?_⟩
    rintro d e rfl rfl
    exact absurd rfl (hnot d e rfl)

theorem initialCapitalOf_sound {today : Date} (hd : defaults.InRange)
    (hs : settings.Sound today n) : IsPositive (initialCapitalOf defaults settings) := by
  unfold initialCapitalOf
  split
  · next hgiven =>
    obtain ⟨hfinite, hlimit⟩ := given?_sound hs hgiven
    exact Reading.isPositive_of_limit hfinite (hlimit _ List.mem_cons_self)
  · exact hd.initialCapital

theorem orderSizeOf_sound {today : Date} (hd : defaults.InRange)
    (hs : settings.Sound today n) : (orderSizeOf defaults settings).InRange := by
  unfold orderSizeOf
  split
  · next hgiven => exact given?_sound hs hgiven
  · exact hd.orderSize

theorem stopLossOf_sound {today : Date} (hs : settings.Sound today n) {x : StopLoss Float}
    (h : stopLossOf settings = some x) : x.InRange := by
  unfold stopLossOf at h
  split at h
  · next hgiven => exact given?_sound hs hgiven x h
  · cases h

theorem takeProfitOf_sound {today : Date} (hs : settings.Sound today n) {x : TakeProfit Float}
    (h : takeProfitOf settings = some x) : x.InRange := by
  unfold takeProfitOf at h
  split at h
  · next hgiven => exact given?_sound hs hgiven x h
  · cases h

theorem tradeCommissionsOf_sound {today : Date} (hs : settings.Sound today n) {x : Commission}
    (h : tradeCommissionsOf settings = some x) : x.InRange := by
  unfold tradeCommissionsOf at h
  split at h
  · next hgiven => exact given?_sound hs hgiven x h
  · cases h

/-- Sound settings come to a strategy in range with shallow conditions. -/
theorem ofSettings_sound {s : Strategy} (hcx : Ticker.isValid cx.ticker = true)
    (hd : defaults.InRange) (hs : settings.Sound cx.today n)
    (h : (ofSettings cx defaults settings).result = .ok s) :
    s.InRange cx.today ∧ s.buyCondition.toExpr.depth ≤ n ∧ s.sellCondition.toExpr.depth ≤ n := by
  obtain ⟨buy, hbuy, h⟩ := result_bind_eq_ok.1 h
  obtain ⟨sell, hsell, h⟩ := result_bind_eq_ok.1 h
  obtain ⟨-, -, h⟩ := result_bind_eq_ok.1 h
  obtain ⟨dates, hdates, h⟩ := result_bind_eq_ok.1 h
  cases h
  obtain ⟨hstart, hfinish, hlt⟩ :=
    checkDates_sound (fun _ => dateOf_sound hs) (fun _ => dateOf_sound hs) hdates
  obtain ⟨hbuy, hbuydepth⟩ := requireCondition_sound hs hbuy
  obtain ⟨hsell, hselldepth⟩ := requireCondition_sound hs hsell
  refine ⟨?_, hbuydepth, hselldepth⟩
  exact
    { ticker := hcx
      buyCondition := hbuy
      sellCondition := hsell
      startDate := hstart
      endDate := hfinish
      dates := hlt
      stopLoss := fun _ => stopLossOf_sound hs
      takeProfit := fun _ => takeProfitOf_sound hs
      initialCapital := initialCapitalOf_sound hd hs
      orderSize := orderSizeOf_sound hd hs
      tradeCommissions := fun _ => tradeCommissionsOf_sound hs }

theorem checkTicker_sound {ks : List (String × Expr)} {ticker : String}
    (hd : Ticker.isValid defaults.ticker = true)
    (h : (checkTicker defaults ks).result = .ok ticker) : Ticker.isValid ticker = true := by
  unfold checkTicker at h
  split at h
  · next hplain =>
    cases h
    obtain ⟨e, -, he⟩ := Option.map_eq_some_iff.1 hplain
    exact Plain.isValid_of_ticker he
  · obtain ⟨-, -, h⟩ := result_bind_eq_ok.1 h
    cases h
    exact hd
  · obtain ⟨-, -, h⟩ := result_bind_eq_ok.1 h
    cases h
    exact hd

/-- The check of the keyword arguments of a strategy. -/
def checkKeywords (defaults : Defaults) (today : Date) (keywords : List (String × Expr)) :
    StrategyCheck Strategy := do
  let ticker ← checkTicker defaults keywords
  let settings ← checkFields ⟨ticker, today⟩ defaults keywords
  noteUnknown keywords
  ofSettings ⟨ticker, today⟩ defaults settings

/-- Positional arguments are noted and do not matter otherwise. -/
theorem result_checkArguments (defaults : Defaults) (today : Date) (args : List Expr)
    (ks : List (String × Expr)) : (checkArguments defaults today args ks).result =
      (checkKeywords defaults today ks).result := by
  unfold checkArguments
  dsimp only
  split
  · rfl
  · exact result_bind_of_ok rfl _

/-- What is accepted is put together from sound settings, under a ticker that is one. -/
theorem exists_settings {source : String} {today : Date} {s : Strategy}
    (hd : Ticker.isValid defaults.ticker = true)
    (h : (check source defaults today).result = .ok s) :
    ∃ (ticker : String) (settings : Settings), Ticker.isValid ticker = true ∧
      settings.Sound today 63 ∧ (ofSettings ⟨ticker, today⟩ defaults settings).result = .ok s := by
  unfold check at h
  split at h
  · cases h
  · next root hparse =>
    have hdepth := Expr.depth_le_of_parse hparse
    unfold checkExpr at h
    split at h
    · cases h
    · split at h
      · next callee args ks =>
        split at h
        · -- The whole text is within the limit, so the values of its keywords are one below it.
          obtain ⟨-, hks⟩ := Expr.depth_call_le (n := 63) |>.1 hdepth
          rw [result_checkArguments] at h
          obtain ⟨ticker, hticker, h⟩ := result_bind_eq_ok.1 h
          obtain ⟨settings, hsettings, h⟩ := result_bind_eq_ok.1 h
          obtain ⟨-, -, h⟩ := result_bind_eq_ok.1 h
          have hvalid := checkTicker_sound hd hticker
          have hsound := checkFields_sound hvalid hks hsettings
          exact ⟨ticker, settings, hvalid, hsound, h⟩
        · cases h
      · cases h

/-! ### Accepted strategies -/

theorem check_sound {source : String} {today : Date} {s : Strategy} (hd : defaults.InRange)
    (h : (check source defaults today).result = .ok s) : s.InRange today ∧
      s.buyCondition.toExpr.depth < Expr.depthLimit ∧
        s.sellCondition.toExpr.depth < Expr.depthLimit := by
  obtain ⟨ticker, settings, hticker, hsettings, h⟩ := exists_settings hd.ticker h
  have hsound : settings.Sound (Context.mk ticker today).today 63 := hsettings
  obtain ⟨hs, hbuy, hsell⟩ := ofSettings_sound hticker hd hsound h
  exact ⟨hs, Nat.lt_succ_of_le hbuy, Nat.lt_succ_of_le hsell⟩

/-- **What is accepted reads from tickers only,** if the default ticker is one. Nothing else is
asked of the defaults. -/
theorem isValid_of_check {source : String} {today : Date} {s : Strategy}
    (hd : Ticker.isValid defaults.ticker = true)
    (h : (check source defaults today).result = .ok s) : Ticker.isValid s.ticker = true ∧
      ∀ x ∈ s.buyCondition.series ++ s.sellCondition.series, ∀ ticker,
        x.ticker? = some ticker → Ticker.isValid ticker = true := by
  obtain ⟨ticker, settings, hticker, hsettings, h⟩ := exists_settings hd h
  obtain ⟨buy, hbuy, h⟩ := result_bind_eq_ok.1 h
  obtain ⟨sell, hsell, h⟩ := result_bind_eq_ok.1 h
  obtain ⟨-, -, h⟩ := result_bind_eq_ok.1 h
  obtain ⟨dates, -, h⟩ := result_bind_eq_ok.1 h
  cases h
  refine ⟨hticker, fun x hx _ => ?_⟩
  rcases List.mem_append.1 hx with hx | hx
  · exact ((requireCondition_sound hsettings hbuy).1.of_mem_series x hx).isValid_of_ticker?
  · exact ((requireCondition_sound hsettings hsell).1.of_mem_series x hx).isValid_of_ticker?

/-- **What is accepted is in range**, whatever the text was. -/
theorem inRange_of_check {source : String} {today : Date} {s : Strategy}
    (hd : defaults.InRange) (h : (check source defaults today).result = .ok s) :
    s.InRange today :=
  (check_sound hd h).1

/-- **What is accepted can be read again**: it is not too deep. -/
theorem depth_of_check {source : String} {today : Date} {s : Strategy} (hd : defaults.InRange)
    (h : (check source defaults today).result = .ok s) : s.toExpr.depth ≤ Expr.depthLimit := by
  obtain ⟨-, hbuy, hsell⟩ := check_sound hd h
  refine Reading.depth_call_keywords (n := 63) fun ke hke => ?_
  rw [keywords_eq, List.mem_filterMap] at hke
  obtain ⟨f, -, hf⟩ := hke
  obtain ⟨e, he, rfl⟩ := Option.map_eq_some_iff.1 hf
  -- Only the two conditions can be deep, and they are less deep than what was read.
  cases f with
  | buyCondition =>
    cases he
    exact Nat.le_of_lt_succ hbuy
  | sellCondition =>
    cases he
    exact Nat.le_of_lt_succ hsell
  | ticker | positionType | interval | initialCapital =>
    cases he
    exact Nat.zero_le _
  | orderSize =>
    cases he
    cases s.orderSize <;> exact Nat.le_add_left 1 62
  | startDate | endDate | period =>
    obtain ⟨d, -, rfl⟩ := Option.map_eq_some_iff.1 he
    exact Nat.zero_le _
  | stopLoss | takeProfit =>
    obtain ⟨x, -, rfl⟩ := Option.map_eq_some_iff.1 he
    exact Nat.le_add_left 1 62
  | tradeCommissions =>
    obtain ⟨x, -, rfl⟩ := Option.map_eq_some_iff.1 he
    cases x <;> exact Nat.le_add_left 1 62

end Strategy

/-! ### Outcomes -/

theorem Outcome.strategy_ofCheck {v : StrategyCheck Strategy} {s : Strategy} :
    (Outcome.ofCheck v).strategy = some s ↔ v.result = .ok s := by
  unfold Outcome.ofCheck
  cases v.result with
  | ok a => exact ⟨fun h => congrArg Except.ok (Option.some.inj h),
      fun h => congrArg some (Except.ok.inj h)⟩
  | error e => exact ⟨fun h => (nomatch h), fun h => (nomatch h)⟩

/-- **A strategy that was accepted is in range everywhere**, whatever the text was, under
defaults in range. In particular each series, at any depth of the two conditions, is in range,
and the ticker that it is read from is one. -/
theorem validate_inRange {source : String} {defaults : Defaults} {today : Date} {s : Strategy}
    (hd : defaults.InRange) (h : (validate source defaults today).strategy = some s) :
    s.InRange today ∧ ∀ x ∈ s.buyCondition.series ++ s.sellCondition.series, x.InRange ∧
      ∀ ticker, x.ticker? = some ticker → Ticker.isValid ticker = true := by
  have hs := Strategy.inRange_of_check hd (Outcome.strategy_ofCheck.1 h)
  have hseries : ∀ x ∈ s.buyCondition.series ++ s.sellCondition.series, x.InRange :=
    List.forall_mem_append.2
      ⟨hs.buyCondition.of_mem_series, hs.sellCondition.of_mem_series⟩
  exact ⟨hs, fun x hx => ⟨hseries x hx, fun _ => (hseries x hx).isValid_of_ticker?⟩⟩

/-- The standard defaults are in range. -/
theorem Defaults.inRange_standard : Defaults.standard.InRange :=
  ⟨by decide, ⟨by decide +kernel, by decide +kernel⟩, show (1 : Int64) ≤ 1 by decide⟩

/-- A text with an argument too many, without a ticker, with a junction of nothing inside of
another one, and with a first day in the future. -/
def repairable : String :=
  "Strategy('?', buy_condition=CrossOverCondition(SMA(length=10), SMA('a b', 50)), " ++
    "sell_condition=OR(AND(), UptrendForXDaysCondition(OBV(), 3)), start_date='2030-01-01')"

theorem isSome_validate_repairable :
    (validate repairable .standard ⟨2024, 2, 29, by decide⟩).strategy.isSome = true := by
  decide +kernel

/-- Such a text is accepted, and what it comes to is in range all the same. -/
theorem validate_inRange_repairable : Defaults.standard.InRange ∧
    ∃ s, (validate repairable .standard ⟨2024, 2, 29, by decide⟩).strategy = some s ∧
      s.InRange ⟨2024, 2, 29, by decide⟩ ∧
      ∀ x ∈ s.buyCondition.series ++ s.sellCondition.series, x.InRange ∧
        ∀ ticker, x.ticker? = some ticker → Ticker.isValid ticker = true := by
  obtain ⟨s, hs⟩ := Option.isSome_iff_exists.1 isSome_validate_repairable
  exact ⟨Defaults.inRange_standard, s, hs, validate_inRange Defaults.inRange_standard hs⟩

end TradeSignals
