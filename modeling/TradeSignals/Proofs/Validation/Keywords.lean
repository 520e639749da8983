import TradeSignals.Proofs.Strategy.Respelling
import TradeSignals.Proofs.Validation.KeywordsAlike

/-!
# Keywords on their own

The text of a strategy is accepted if and only if both conditions are there and are accepted on
their own; nothing else about the text can be a reason to refuse it
(`TradeSignals.validate_keywords`). Then the order of the keywords does not matter, and each part
of the strategy depends on its own keyword, the defaults and the day
(`TradeSignals.Field.inputs`). There are two exceptions: the dates depend on each other, since they
have to be in order, and a condition takes the ticker of the strategy where one of its series gives
none.
-/

namespace TradeSignals

open Verdict

namespace Strategy

variable {cx : Context} {defaults : Defaults} {today : Date} {ks : List (String × Expr)}
  {settings settings' : Settings} {s s' : Strategy}

/-! ### Two lists of keyword arguments -/

section Two

variable {ks' : List (String × Expr)} {f : Field}

theorem tickerOf_congr (h : keyword? ks .ticker = keyword? ks' .ticker) :
    tickerOf defaults ks = tickerOf defaults ks' := by
  rw [tickerOf, tickerOf, h]

theorem ticker_of_ofSettings (h : (ofSettings cx defaults settings).result = .ok s) :
    s.ticker = cx.ticker := by
  obtain ⟨buy, sell, -, -, rfl⟩ := result_ofSettings_eq_ok.1 h
  rfl

theorem plain_of_mem_inputs (hf : isCondition f = false) (hticker : f ≠ .ticker) {g : Field}
    (hg : g ∈ f.inputs) : isCondition g = false ∧ g ≠ .ticker := by
  cases f with
  | ticker => exact absurd rfl hticker
  | buyCondition | sellCondition => cases hf
  | startDate | endDate =>
    rcases List.mem_cons.1 hg with rfl | hg
    · decide
    · obtain rfl := List.mem_singleton.1 hg
      decide
  | _ =>
    obtain rfl := List.mem_singleton.1 hg
    exact ⟨hf, hticker⟩

/-- **A condition that is given twice** is the same condition, but for the ticker of each series
that leaves it to the strategy. -/
theorem refilled_of_keyword (h : (checkKeywords defaults today ks).result = .ok s)
    (h' : (checkKeywords defaults today ks').result = .ok s') (hf : isCondition f = true) {e : Expr}
    (he : keyword? ks f = some e) (he' : keyword? ks' f = some e) :
    ∃ c c', s.value? f = some (.condition c) ∧ s'.value? f = some (.condition c') ∧
      Condition.Refilled today s.ticker s'.ticker e c c' := by
  obtain ⟨settings, hsettings, h⟩ := checkKeywords_eq_ok.1 h
  obtain ⟨settings', hsettings', h'⟩ := checkKeywords_eq_ok.1 h'
  obtain ⟨c, hc, hgiven⟩ := value?_of_isCondition h hf
  obtain ⟨c', hc', hgiven'⟩ := value?_of_isCondition h' hf
  obtain ⟨_, hkeyword, hcheck⟩ := (given?_condition_iff hsettings hf).1 hgiven
  obtain ⟨_, hkeyword', hcheck'⟩ := (given?_condition_iff hsettings' hf).1 hgiven'
  obtain rfl := Option.some.inj (he.symm.trans hkeyword)
  obtain rfl := Option.some.inj (he'.symm.trans hkeyword')
  rw [ticker_of_ofSettings h, ticker_of_ofSettings h']
  exact ⟨c, c', hc, hc', (Condition.check_refilled e _ _ today).of_ok hcheck hcheck'⟩

/-- **A part of a strategy** is a function of what it depends on. -/
theorem value?_eq_of_inputs (h : (checkKeywords defaults today ks).result = .ok s)
    (h' : (checkKeywords defaults today ks').result = .ok s')
    (hinputs : ∀ g ∈ f.inputs, keyword? ks g = keyword? ks' g) : s.value? f = s'.value? f := by
  obtain ⟨settings, hsettings, hs⟩ := checkKeywords_eq_ok.1 h
  obtain ⟨settings', hsettings', hs'⟩ := checkKeywords_eq_ok.1 h'
  have hticker : .ticker ∈ f.inputs → s.ticker = s'.ticker := fun hmem => by
    rw [ticker_of_ofSettings hs, ticker_of_ofSettings hs']
    exact tickerOf_congr (hinputs _ hmem)
  by_cases hne : f = .ticker
  · subst hne
    exact congrArg (some ∘ Value.ticker) (hticker List.mem_cons_self)
  rcases hf : isCondition f with _ | _
  · refine value?_congr hs hs' hf hne fun g hg => ?_
    obtain ⟨hplain, hne⟩ := plain_of_mem_inputs hf hne hg
    rw [(checkFields_eq_ok hsettings).1 g hne, (checkFields_eq_ok hsettings').1 g hne, hinputs g hg]
    exact congrArg (Option.map · _) (funext fun e => resultOf_eq hplain _ _ today e)
  · have hmem : f ∈ f.inputs ∧ .ticker ∈ f.inputs := by
      cases f <;> first | decide | cases hf
    obtain ⟨c, -, hgiven⟩ := value?_of_isCondition hs hf
    obtain ⟨e, he, -⟩ := (given?_condition_iff hsettings hf).1 hgiven
    obtain ⟨c, c', hc, hc', hrefilled⟩ :=
      refilled_of_keyword h h' hf he ((hinputs f hmem.1).symm.trans he)
    rw [hticker hmem.2] at hrefilled
    rw [hc, hc', hrefilled.eq_of_ticker]

end Two

/-! ### Texts -/

/-- **A text that is written as a strategy**: it is read as the call of one, and shows no denied
name. -/
structure IsCall (source : String) (args : List Expr) (ks : List (String × Expr)) : Prop where
  /-- The call. -/
  parse : Expr.parse source = .ok (.call Constructor.strategy.name args ks)
  /-- No name is denied. -/
  allowed : ¬DeniedName.ShowsAnywhere (.call Constructor.strategy.name args ks)

namespace IsCall

variable {source : String} {args : List Expr}

theorem check_eq (h : IsCall source args ks) (defaults : Defaults) (today : Date) :
    check source defaults today = checkArguments defaults today args ks := by
  rw [check, h.parse]
  dsimp only
  rw [checkExpr.eq_def, DeniedName.find?_eq_none_iff.2 h.allowed]
  exact if_pos rfl

theorem nodup_keys (h : IsCall source args ks) : (ks.map (·.1)).Nodup :=
  Expr.keysDistinct_of_parse h.parse _ (List.mem_of_mem_head? (Expr.head?_subterms _))

/-- A denied name is found in whatever order the keywords are written. -/
theorem perm (h : IsCall source args ks) {other : String} {ks' : List (String × Expr)}
    (hparse : Expr.parse other = .ok (.call Constructor.strategy.name args ks'))
    (hperm : ks.Perm ks') : IsCall other args ks' := by
  have hstep : Expr.Respelling false (.call Constructor.strategy.name args ks)
      (.call Constructor.strategy.name args ks') := .reordered hperm
  exact ⟨hparse, fun hshows => h.allowed (hstep.showsAnywhere_iff.2 hshows)⟩

end IsCall

/-- **Every rejection** is one of the text or of one of the two conditions. -/
theorem check_eq_error {source : String} {r : Rejection}
    (h : (check source defaults today).result = .error r) :
    r.key = "strategy" ∨ ∃ side, isCondition side = true ∧ r.key = side.key := by
  unfold check checkExpr at h
  split at h
  · cases h
    exact .inl rfl
  · split at h
    · cases h
      exact .inl rfl
    · split at h
      · split at h
        · rw [result_checkArguments] at h
          exact .inr (checkKeywords_eq_error h)
        · cases h
          exact .inl rfl
      · cases h
        exact .inl rfl

end Strategy

namespace Strategy.IsCall

variable {source other : String} {args : List Expr} {ks ks' : List (String × Expr)}
  {defaults : Defaults} {today : Date} {s : Strategy}

theorem strategy_eq_some_iff (h : IsCall source args ks) :
    (validate source defaults today).strategy = some s ↔
      (checkKeywords defaults today ks).result = .ok s := by
  rw [validate, Outcome.strategy_ofCheck, h.check_eq, result_checkArguments]

theorem ok_iff (h : IsCall source args ks) : (validate source defaults today).ok = true ↔
    ∃ s, (checkKeywords defaults today ks).result = .ok s := by
  rw [validate, Outcome.ok_ofCheck, h.check_eq, result_checkArguments]

/-- **Texts with the same keywords in another order** come to the same strategy and the same
text, and what is recorded has the same keys. -/
theorem validate_perm (h : IsCall source args ks) (h' : IsCall other args ks')
    (hperm : ks.Perm ks') (hok : (validate source defaults today).ok = true) :
    (validate other defaults today).strategy = (validate source defaults today).strategy ∧
      (validate other defaults today).sanitized = (validate source defaults today).sanitized ∧
      ∀ key, key ∈ (validate other defaults today).changes.keys ↔
        key ∈ (validate source defaults today).changes.keys := by
  have hsame : (validate source defaults today).Same (validate other defaults today) := by
    obtain ⟨hresult, hnotes⟩ := checkArguments_alike (.of_perm h.nodup_keys hperm) defaults today
    rw [validate, validate, h.check_eq, h'.check_eq]
    exact .of_alike hresult hnotes
  exact ⟨hsame.strategy.symm, hsame.sanitized_eq.symm, fun key => (hsame.keys hok key).symm⟩

end Strategy.IsCall

open Strategy in
/-- **The keywords of a strategy stand on their own.** For a text that is written as a strategy,
under any defaults and on any day:

* it is accepted if and only if both conditions are there and each of them is accepted, under
  whatever ticker;
* if it is accepted, then the same keywords in another order come to the same strategy, the same
  text and the same keys of what is recorded;
* in any two strategies, a part is the same if what it depends on is written in the same way. A
  condition that is written in the same way is the same series by series: a series that leaves its
  ticker to the strategy is read from the ticker of the one and of the other, and a series that
  gives its own does not change;
* if it is refused, then this is recorded for one of the two conditions.

Of a text that is refused for whatever reason nothing comes out, and the reason is recorded for the
strategy or for one of its conditions. -/
theorem validate_keywords {source : String} {args : List Expr} {ks : List (String × Expr)}
    (h : IsCall source args ks) (defaults : Defaults) (today : Date) :
    (∀ ticker, (validate source defaults today).ok = true ↔
      ∃ buy sell, keyword? ks .buyCondition = some buy ∧ keyword? ks .sellCondition = some sell ∧
        Condition.IsAccepted ⟨ticker, today⟩ buy ∧ Condition.IsAccepted ⟨ticker, today⟩ sell) ∧
    ((validate source defaults today).ok = true → ∀ other ks',
      Expr.parse other = .ok (.call Constructor.strategy.name args ks') → ks.Perm ks' →
        (validate other defaults today).strategy = (validate source defaults today).strategy ∧
        (validate other defaults today).sanitized = (validate source defaults today).sanitized ∧
        ∀ key, key ∈ (validate other defaults today).changes.keys ↔
          key ∈ (validate source defaults today).changes.keys) ∧
    (∀ other args' ks', IsCall other args' ks' →
      ∀ s s', (validate source defaults today).strategy = some s →
        (validate other defaults today).strategy = some s' →
        (∀ f : Field, (∀ g ∈ f.inputs, keyword? ks g = keyword? ks' g) →
          s.value? f = s'.value? f) ∧
        ∀ f, isCondition f = true → ∀ e, keyword? ks f = some e → keyword? ks' f = some e →
          ∃ c c', s.value? f = some (.condition c) ∧ s'.value? f = some (.condition c') ∧
            Condition.Refilled today s.ticker s'.ticker e c c') ∧
    ((validate source defaults today).ok = false →
      "buy_condition" ∈ (validate source defaults today).changes.keys ∨
        "sell_condition" ∈ (validate source defaults today).changes.keys) ∧
    ∀ text, (validate text defaults today).ok = false →
      (validate text defaults today).sanitized = "" ∧
      (validate text defaults today).strategy = none ∧
      ∃ key ∈ ["strategy", "buy_condition", "sell_condition"],
        key ∈ (validate text defaults today).changes.keys := by
  have hside : ∀ {side : Field} {key : String}, isCondition side = true → key = side.key →
      key = "buy_condition" ∨ key = "sell_condition" := by
    rintro side _ hside rfl
    cases side with
    | buyCondition => exact .inl rfl
    | sellCondition => exact .inr rfl
    | _ => cases hside
  refine ⟨fun ticker => ?_, fun hok other ks' hparse hperm => ?_, ?_, fun hnot => ?_,
    fun text hnot => ?_⟩
  · exact h.ok_iff.trans (checkKeywords_isOk_iff h.nodup_keys ticker)
  · exact h.validate_perm (h.perm hparse hperm) hperm hok
  · intro other args' ks' h' s s' hs hs'
    have hs := h.strategy_eq_some_iff.1 hs
    have hs' := h'.strategy_eq_some_iff.1 hs'
    exact ⟨fun f => value?_eq_of_inputs hs hs', fun f hf e => refilled_of_keyword hs hs' hf⟩
  · obtain ⟨-, -, r, hr, hmem⟩ := Outcome.of_not_ok hnot
    rw [h.check_eq, result_checkArguments] at hr
    obtain ⟨side, hcondition, hkey⟩ := checkKeywords_eq_error hr
    rcases hside hcondition hkey with hbuy | hsell
    · exact .inl (hbuy ▸ hmem)
    · exact .inr (hsell ▸ hmem)
  · obtain ⟨hsanitized, hnone, r, hr, hmem⟩ := Outcome.of_not_ok hnot
    refine ⟨hsanitized, hnone, r.key, ?_, hmem⟩
    simp only [List.mem_cons, List.not_mem_nil, or_false]
    exact (check_eq_error hr).imp_right fun ⟨_, hcondition, hkey⟩ => hside hcondition hkey

/-- A strategy with an argument and a keyword too many, without most of its parameters, whose
keywords are out of order, and whose first condition leaves its ticker to the strategy. -/
def scattered : String :=
  "Strategy(7, note=1, buy_condition=LessThanCondition(OBV(), CONST(1)), ticker='A', " ++
    "sell_condition=LessThanCondition(OBV('B'), CONST(1)))"

/-- The same strategy with its keywords in order. -/
def gathered : String :=
  "Strategy(7, ticker='A', buy_condition=LessThanCondition(OBV(), CONST(1)), " ++
    "sell_condition=LessThanCondition(OBV('B'), CONST(1)), note=1)"

/-- Both are accepted, and they come to the same strategy. -/
theorem validate_keywords_scattered : ∃ args ks ks', Strategy.IsCall scattered args ks ∧
    Expr.parse gathered = .ok (.call Constructor.strategy.name args ks') ∧ ks.Perm ks' ∧
    (validate scattered .standard ⟨2024, 2, 29, by decide⟩).ok = true ∧
    (validate gathered .standard ⟨2024, 2, 29, by decide⟩).strategy =
      (validate scattered .standard ⟨2024, 2, 29, by decide⟩).strategy := by
  let below (series : Expr) : Expr :=
    .call "LessThanCondition" [series, .call "CONST" [.int 1] []] []
  let buy : String × Expr := ("buy_condition", below (.call "OBV" [] []))
  let sell : String × Expr := ("sell_condition", below (.call "OBV" [.quoted "B"] []))
  let ticker : String × Expr := ("ticker", .quoted "A")
  let note : String × Expr := ("note", .int 1)
  have hscattered : Strategy.IsCall scattered [.int 7] [note, buy, ticker, sell] :=
    ⟨Except.toOption_eq_some_iff.1 (by decide +kernel),
      DeniedName.find?_eq_none_iff.1 (by decide +kernel)⟩
  have hgathered : Expr.parse gathered =
      .ok (.call Constructor.strategy.name [.int 7] [ticker, buy, sell, note]) :=
    Except.toOption_eq_some_iff.1 (by decide +kernel)
  have hperm : [note, buy, ticker, sell].Perm [ticker, buy, sell, note] := by decide +kernel
  have hok : (validate scattered .standard ⟨2024, 2, 29, by decide⟩).ok = true := by decide +kernel
  obtain ⟨-, hsame, -⟩ := validate_keywords hscattered .standard ⟨2024, 2, 29, by decide⟩
  exact ⟨_, _, _, hscattered, hgathered, hperm, hok, (hsame hok gathered _ hgathered hperm).1⟩

end TradeSignals
