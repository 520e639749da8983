import TradeSignals.Proofs.Validation.Refilled
import TradeSignals.Proofs.Validation.Unchanged

/-!
# What keywords come to

The keywords of a strategy are checked one after the other, and what they come to is kept in a list
of settings. From there on nothing but what is found in that list matters
(`TradeSignals.Strategy.ofSettings_congr`), and this is what the keyword comes to on its own
(`TradeSignals.Strategy.checkFields_eq_ok`). A strategy is made of the settings as soon as both
conditions are among them (`TradeSignals.Strategy.result_ofSettings_eq_ok`).
-/

namespace TradeSignals

open Verdict

namespace Verdict

variable {ν ε α β : Type}

/-- A check in two parts has a fault if one of them has. -/
theorem result_bind_eq_error {v : Verdict ν ε α} {f : α → Verdict ν ε β} {e : ε} :
    (v >>= f).result = .error e ↔
      v.result = .error e ∨ ∃ a, v.result = .ok a ∧ (f a).result = .error e := by
  rcases hv : v.result with e' | a
  · rw [bind_of_error hv]
    refine ⟨fun h => .inl (congrArg Except.error (Except.error.inj h)), ?_⟩
    rintro (⟨⟨⟩⟩ | ⟨_, ⟨⟩, _⟩)
    rfl
  · rw [result_bind_of_ok hv]
    refine ⟨fun h => .inr ⟨a, rfl, h⟩, ?_⟩
    rintro (h | ⟨_, ⟨⟩, h⟩)
    · cases h
    · exact h

theorem result_forM_eq_ok {f : α → Verdict ν ε Unit} (as : List α)
    (h : ∀ a ∈ as, (f a).result = .ok ()) : (as.forM f).result = .ok () := by
  induction as with
  | nil => rfl
  | cons a as ih =>
    rw [List.forM, result_bind_eq_ok]
    exact ⟨(), h a List.mem_cons_self, ih fun b hb => h b (List.mem_cons_of_mem _ hb)⟩

end Verdict

/-- What a part of a strategy depends on, besides the defaults and the day. -/
def Field.inputs : Field → List Field
  | .buyCondition => [.buyCondition, .ticker]
  | .sellCondition => [.sellCondition, .ticker]
  | .startDate | .endDate => [.startDate, .endDate]
  | f => [f]

namespace Strategy

variable {cx : Context} {defaults : Defaults} {today : Date} {ks : List (String × Expr)}
  {settings settings' : Settings} {s s' : Strategy}

/-! ### One keyword -/

/-- The ticker of a strategy: the one that is given, or the default. -/
def tickerOf (defaults : Defaults) (ks : List (String × Expr)) : String :=
  match (keyword? ks .ticker).map Plain.ticker with
  | some (.ok ticker) => ticker
  | _ => defaults.ticker

theorem result_checkTicker (defaults : Defaults) (ks : List (String × Expr)) :
    (checkTicker defaults ks).result = .ok (tickerOf defaults ks) := by
  rw [checkTicker, tickerOf]
  rcases (keyword? ks .ticker).map Plain.ticker with _ | _ | _ <;> rfl

/-- What the argument of a parameter comes to. -/
def resultOf (cx : Context) (f : Field) (e : Expr) : Except Fault Value :=
  ((Reading.of cx e).parameter cx (some .strategy) f.slot).result

/-- **A parameter ends the check** only if it is a condition, and none. -/
theorem result_checkField (cx : Context) (defaults : Defaults) (f : Field) (e : Expr) :
    (checkField cx defaults f e).result =
      match resultOf cx f e with
      | .ok v => .ok (.ok v)
      | .error fault =>
        if isCondition f then .error (.invalid f fault) else .ok (.error fault) := by
  rw [checkField, resultOf]
  generalize (Reading.of cx e).parameter cx (some .strategy) f.slot = check
  obtain ⟨notes, fault | v⟩ := check
  · refine (result_bind_of_ok (a := .error fault) rfl _).trans ?_
    dsimp only
    split <;> rfl
  · rfl

/-- What is kept of a parameter is what its argument comes to. -/
theorem resultOf_eq_of_checkField {f : Field} {e : Expr} {found : Except Fault Value}
    (h : (checkField cx defaults f e).result = .ok found) : resultOf cx f e = found := by
  rw [result_checkField] at h
  split at h
  · next hv => exact hv.trans (Except.ok.inj h)
  · next hfault =>
    split at h
    · cases h
    · exact hfault.trans (Except.ok.inj h)

theorem tag_eq_condition_iff {f : Field} : f.tag = .condition ↔ isCondition f = true := by
  cases f <;> simp [Field.tag, isCondition]

/-- A parameter that is no condition comes to the same under all tickers. -/
theorem resultOf_eq {f : Field} (hf : isCondition f = false) (ticker ticker' : String)
    (today : Date) (e : Expr) :
    resultOf ⟨ticker, today⟩ f e = resultOf ⟨ticker', today⟩ f e := by
  have h := Reading.refilled_of today ticker ticker' e
  refine (Reading.parameter_agree h (some .strategy) (fun htag => ?_) ?_).result_eq
  · rw [tag_eq_condition_iff.1 htag] at hf
    cases hf
  · cases f <;> exact nofun

/-- A condition is accepted as a parameter if and only if it is accepted. -/
theorem resultOf_eq_ok_iff {f : Field} (hf : isCondition f = true) {e : Expr} {v : Value} :
    resultOf cx f e = .ok v ↔ ∃ c, (Condition.check cx e).result = .ok c ∧ v = .condition c := by
  have htag : f.slot.tag = .condition := tag_eq_condition_iff.2 hf
  rw [resultOf, Reading.parameter, htag, Condition.check, result_bind_eq_ok]
  constructor
  · rintro ⟨w, hw, h⟩
    obtain ⟨c, hc, rfl⟩ := result_map_eq_ok.1 hw
    cases h
    exact ⟨c, hc, rfl⟩
  · rintro ⟨c, hc, rfl⟩
    exact ⟨_, result_map_eq_ok.2 ⟨c, hc, rfl⟩, rfl⟩

/-! ### All keywords -/

/-- **What is found for a parameter** is what its keyword comes to on its own, and what is noted
is what is noted about each keyword. -/
theorem checkFields_eq_ok (h : (checkFields cx defaults ks).result = .ok settings) :
    (∀ f ≠ .ticker, settings.lookup f = (keyword? ks f).map (resultOf cx f)) ∧
      (checkFields cx defaults ks).notes =
        ks.flatMap fun k => (checkFields cx defaults [k]).notes := by
  induction ks generalizing settings with
  | nil =>
    cases h
    exact ⟨fun _ _ => rfl, rfl⟩
  | cons k ks ih =>
    obtain ⟨key, e⟩ := k
    by_cases hfield : ∃ f ≠ .ticker, Field.ofKey? key = some f
    · obtain ⟨f, hf, hkey⟩ := hfield
      rw [checkFields_cons hkey hf] at h ⊢
      obtain ⟨x, hx, h⟩ := result_bind_eq_ok.1 h
      obtain ⟨settings', hsettings', h⟩ := result_bind_eq_ok.1 h
      cases h
      obtain ⟨hlookup, hnotes⟩ := ih hsettings'
      obtain rfl := Field.key_of_ofKey? hkey
      refine ⟨fun g hg => ?_, ?_⟩
      · rw [keyword?_cons]
        by_cases hgf : f = g
        · subst hgf
          rw [if_pos rfl, List.lookup_cons_self, Option.map_some,
            resultOf_eq_of_checkField hx]
        · have hne : f.key ≠ g.key := fun heq => hgf (Field.key_injective heq)
          rw [if_neg hne, List.lookup_cons, beq_eq_false_iff_ne.2 (Ne.symm hgf)]
          exact hlookup g hg
      · have hone : (checkFields cx defaults [(f.key, e)]).notes =
            (checkField cx defaults f e).notes := by
          rw [checkFields_cons hkey hf, notes_bind_of_ok hx]
          exact List.append_nil _
        rw [List.flatMap_cons, ← hnotes, hone, notes_bind_of_ok hx, notes_bind_of_ok hsettings']
        exact congrArg _ (List.append_nil _)
    · have hkey : ∀ f ≠ .ticker, Field.ofKey? key ≠ some f := fun f hf heq => hfield ⟨f, hf, heq⟩
      rw [checkFields_cons_of_other hkey] at h ⊢
      obtain ⟨hlookup, hnotes⟩ := ih h
      refine ⟨fun f hf => ?_, ?_⟩
      · rw [keyword?_cons_of_other (hkey f hf)]
        exact hlookup f hf
      · rw [List.flatMap_cons, ← hnotes, checkFields_cons_of_other hkey]
        rfl

/-- **A keyword that ends the check** is that of a condition, and its argument is none. -/
theorem checkFields_eq_error {r : Rejection} (h : (checkFields cx defaults ks).result = .error r) :
    ∃ f e fault, isCondition f = true ∧ (f.key, e) ∈ ks ∧ resultOf cx f e = .error fault ∧
      r = .invalid f fault := by
  induction ks with
  | nil => cases h
  | cons k ks ih =>
    obtain ⟨key, e⟩ := k
    have hrest : (checkFields cx defaults ks).result = .error r →
        ∃ f e' fault, isCondition f = true ∧ (f.key, e') ∈ (key, e) :: ks ∧
          resultOf cx f e' = .error fault ∧ r = .invalid f fault := by
      intro h
      obtain ⟨f, e', fault, hf, hmem, hfault, hr⟩ := ih h
      exact ⟨f, e', fault, hf, List.mem_cons_of_mem _ hmem, hfault, hr⟩
    by_cases hfield : ∃ f ≠ .ticker, Field.ofKey? key = some f
    · obtain ⟨f, hf, hkey⟩ := hfield
      rw [checkFields_cons hkey hf] at h
      rcases result_bind_eq_error.1 h with h | ⟨x, -, h⟩
      · rw [result_checkField] at h
        split at h
        · cases h
        · next fault hfault =>
          split at h
          · next hcondition =>
            cases h
            obtain rfl := Field.key_of_ofKey? hkey
            exact ⟨f, e, fault, hcondition, List.mem_cons_self, hfault, rfl⟩
          · cases h
      · rcases result_bind_eq_error.1 h with h | ⟨_, -, h⟩
        · exact hrest h
        · cases h
    · rw [checkFields_cons_of_other fun f hf heq => hfield ⟨f, hf, heq⟩] at h
      exact hrest h

/-! ### Settings -/

theorem result_noteUnknown (ks : List (String × Expr)) : (noteUnknown ks).result = .ok () := by
  rw [noteUnknown]
  split <;> rfl

theorem result_requireCondition_eq_ok {side : Field} {c : Condition} :
    (requireCondition settings side).result = .ok c ↔
      given? settings side = some (.condition c) := by
  rw [requireCondition]
  split
  · next hc =>
    rw [hc]
    exact ⟨fun h => congrArg (some ∘ Value.condition) (Except.ok.inj h),
      fun h => congrArg Except.ok (Value.condition.inj (Option.some.inj h))⟩
  · next hnot =>
    refine ⟨fun h => ?_, fun h => absurd h (hnot c)⟩
    cases h

theorem result_requireCondition_eq_error {side : Field} {r : Rejection}
    (h : (requireCondition settings side).result = .error r) : r = .missing side := by
  rw [requireCondition] at h
  split at h
  · cases h
  · cases h
    rfl

theorem result_noteMissing (cx : Context) (defaults : Defaults) (settings : Settings) :
    (defaulted.forM (noteMissing cx defaults settings)).result = .ok () := by
  refine result_forM_eq_ok _ fun f _ => ?_
  rw [noteMissing]
  split <;> rfl

/-- The two dates, once they are in order. -/
def datesInOrder (cx : Context) (defaults : Defaults) :
    Option Date → Option Date → Option Date × Option Date
  | some s, some e =>
    if s < e then (some s, some e)
    else ((usableRange? cx defaults).map (·.1), (usableRange? cx defaults).map (·.2))
  | start, finish => (start, finish)

theorem result_checkDates (cx : Context) (defaults : Defaults) (start finish : Option Date) :
    (checkDates cx defaults start finish).result = .ok (datesInOrder cx defaults start finish) := by
  rcases start with _ | s
  · rfl
  · rcases finish with _ | e
    · rfl
    · rw [checkDates, datesInOrder]
      split <;> rfl

/-- The dates that settings come to. -/
def datesOf (cx : Context) (defaults : Defaults) (settings : Settings) :
    Option Date × Option Date :=
  datesInOrder cx defaults (dateOf cx settings .startDate defaults.startDate)
    (dateOf cx settings .endDate defaults.endDate)

/-- The strategy that settings come to. -/
def settle (cx : Context) (defaults : Defaults) (settings : Settings) (buy sell : Condition) :
    Strategy :=
  { assemble cx defaults settings buy sell with
    startDate := (datesOf cx defaults settings).1
    endDate := (datesOf cx defaults settings).2 }

/-- **Settings come to a strategy** if both conditions are there. -/
theorem result_ofSettings_eq_ok : (ofSettings cx defaults settings).result = .ok s ↔
    ∃ buy sell, given? settings .buyCondition = some (.condition buy) ∧
      given? settings .sellCondition = some (.condition sell) ∧
      s = settle cx defaults settings buy sell := by
  constructor
  · intro h
    obtain ⟨buy, hbuy, h⟩ := result_bind_eq_ok.1 h
    obtain ⟨sell, hsell, h⟩ := result_bind_eq_ok.1 h
    obtain ⟨-, -, h⟩ := result_bind_eq_ok.1 h
    obtain ⟨dates, hdates, h⟩ := result_bind_eq_ok.1 h
    rw [result_checkDates] at hdates
    cases hdates
    cases h
    exact ⟨buy, sell, result_requireCondition_eq_ok.1 hbuy, result_requireCondition_eq_ok.1 hsell,
      rfl⟩
  · rintro ⟨buy, sell, hbuy, hsell, rfl⟩
    exact result_bind_eq_ok.2 ⟨buy, result_requireCondition_eq_ok.2 hbuy, result_bind_eq_ok.2
      ⟨sell, result_requireCondition_eq_ok.2 hsell, result_bind_eq_ok.2
        ⟨(), result_noteMissing cx defaults settings, result_bind_eq_ok.2
          ⟨_, result_checkDates _ _ _ _, rfl⟩⟩⟩⟩

theorem ofSettings_eq_error {r : Rejection}
    (h : (ofSettings cx defaults settings).result = .error r) :
    ∃ side, isCondition side = true ∧ r = .missing side := by
  rcases result_bind_eq_error.1 h with h | ⟨buy, -, h⟩
  · exact ⟨_, rfl, result_requireCondition_eq_error h⟩
  · rcases result_bind_eq_error.1 h with h | ⟨sell, -, h⟩
    · exact ⟨_, rfl, result_requireCondition_eq_error h⟩
    · rcases result_bind_eq_error.1 h with h | ⟨_, -, h⟩
      · rw [result_noteMissing] at h
        cases h
      · rcases result_bind_eq_error.1 h with h | ⟨_, -, h⟩
        · rw [result_checkDates] at h
          cases h
        · cases h

/-- **Settings are looked up** by their parameters, and nothing else about them matters. Of faults
it does not even matter which ones they are. -/
theorem ofSettings_congr (h : ∀ f ≠ .ticker,
    (settings.lookup f).map Except.toOption = (settings'.lookup f).map Except.toOption) :
    ofSettings cx defaults settings = ofSettings cx defaults settings' := by
  have hcases : ∀ f ≠ .ticker, given? settings f = given? settings' f ∧
      wasRefused settings f = wasRefused settings' f ∧
      (settings.lookup f).isNone = (settings'.lookup f).isNone := by
    intro f hf
    have hf := h f hf
    rw [given?, given?, wasRefused, wasRefused]
    generalize settings.lookup f = x at hf ⊢
    generalize settings'.lookup f = y at hf ⊢
    rcases x with _ | _ | v <;> rcases y with _ | _ | w <;> cases hf <;> exact ⟨rfl, rfl, rfl⟩
  have hgiven : ∀ f ≠ .ticker, given? settings f = given? settings' f := fun f hf => (hcases f hf).1
  have hrefused : ∀ f ≠ .ticker, wasRefused settings f = wasRefused settings' f :=
    fun f hf => (hcases f hf).2.1
  have hmissing : ∀ f ≠ .ticker,
      noteMissing cx defaults settings f = noteMissing cx defaults settings' f := fun f hf => by
    rw [noteMissing, noteMissing, (hcases f hf).2.2]
  simp (disch := decide) only [ofSettings, defaulted, List.forM, hmissing,
    requireCondition, dateOf, positionTypeOf, stopLossOf,
    takeProfitOf, intervalOf, periodOf, initialCapitalOf, orderSizeOf, tradeCommissionsOf, hgiven,
    hrefused]

theorem given?_eq_some_iff {f : Field} {v : Value} :
    given? settings f = some v ↔ settings.lookup f = some (.ok v) := by
  rw [given?]
  split
  · next w hlookup => rw [hlookup, Option.some.injEq, Option.some.injEq, Except.ok.injEq]
  · next hnot =>
    refine ⟨fun h => ?_, fun h => absurd h (hnot v)⟩
    cases h

/-- **A condition that settings have** is what its keyword is read as. -/
theorem given?_condition_iff (h : (checkFields cx defaults ks).result = .ok settings) {f : Field}
    (hf : isCondition f = true) {c : Condition} : given? settings f = some (.condition c) ↔
      ∃ e, keyword? ks f = some e ∧ (Condition.check cx e).result = .ok c := by
  have hne : f ≠ .ticker := by
    rintro rfl
    cases hf
  rw [given?_eq_some_iff, (checkFields_eq_ok h).1 f hne, Option.map_eq_some_iff]
  refine exists_congr fun e => and_congr_right fun _ => ?_
  rw [resultOf_eq_ok_iff hf]
  constructor
  · rintro ⟨_, hc, ⟨⟩⟩
    exact hc
  · exact fun hc => ⟨c, hc, rfl⟩

/-- The conditions of a strategy are those of its settings. -/
theorem value?_of_isCondition (h : (ofSettings cx defaults settings).result = .ok s) {f : Field}
    (hf : isCondition f = true) :
    ∃ c, s.value? f = some (.condition c) ∧ given? settings f = some (.condition c) := by
  obtain ⟨buy, sell, hbuy, hsell, rfl⟩ := result_ofSettings_eq_ok.1 h
  cases f with
  | buyCondition => exact ⟨buy, rfl, hbuy⟩
  | sellCondition => exact ⟨sell, rfl, hsell⟩
  | _ => cases hf

/-- **The other parts of a strategy** are the same if what is found for their parameters is, under
whatever tickers. -/
theorem value?_congr {ticker ticker' : String}
    (h : (ofSettings ⟨ticker, today⟩ defaults settings).result = .ok s)
    (h' : (ofSettings ⟨ticker', today⟩ defaults settings').result = .ok s') {f : Field}
    (hf : isCondition f = false) (hticker : f ≠ .ticker)
    (hinputs : ∀ g ∈ f.inputs, settings.lookup g = settings'.lookup g) :
    s.value? f = s'.value? f := by
  obtain ⟨buy, sell, -, -, rfl⟩ := result_ofSettings_eq_ok.1 h
  obtain ⟨buy', sell', -, -, rfl⟩ := result_ofSettings_eq_ok.1 h'
  cases f with
  | ticker => exact absurd rfl hticker
  | buyCondition | sellCondition => cases hf
  | startDate | endDate =>
    have hstart := hinputs .startDate (by decide)
    have hend := hinputs .endDate (by decide)
    simp only [value?, settle, datesOf, dateOf, given?, wasRefused, hstart, hend]
    rfl
  | _ =>
    have hlookup := hinputs _ List.mem_cons_self
    simp only [value?, settle, assemble, positionTypeOf, stopLossOf, takeProfitOf, intervalOf,
      periodOf, initialCapitalOf, orderSizeOf, tradeCommissionsOf, given?, hlookup]

/-! ### Keyword arguments -/

theorem checkKeywords_eq_ok : (checkKeywords defaults today ks).result = .ok s ↔
    ∃ settings, (checkFields ⟨tickerOf defaults ks, today⟩ defaults ks).result = .ok settings ∧
      (ofSettings ⟨tickerOf defaults ks, today⟩ defaults settings).result = .ok s := by
  rw [checkKeywords, result_bind_of_ok (result_checkTicker defaults ks), result_bind_eq_ok]
  refine exists_congr fun settings => and_congr_right fun _ => ?_
  rw [result_bind_of_ok (result_noteUnknown ks)]

/-- **Keyword arguments are refused** for one of the two conditions. -/
theorem checkKeywords_eq_error {r : Rejection}
    (h : (checkKeywords defaults today ks).result = .error r) :
    ∃ side, isCondition side = true ∧ r.key = side.key := by
  rw [checkKeywords, result_bind_of_ok (result_checkTicker defaults ks)] at h
  rcases result_bind_eq_error.1 h with h | ⟨settings, -, h⟩
  · obtain ⟨side, e, fault, hside, -, -, rfl⟩ := checkFields_eq_error h
    exact ⟨side, hside, rfl⟩
  · rw [result_bind_of_ok (result_noteUnknown ks)] at h
    obtain ⟨side, hside, rfl⟩ := ofSettings_eq_error h
    exact ⟨side, hside, rfl⟩

/-- **Keyword arguments are accepted** if and only if both conditions are there and are accepted,
under whatever ticker. -/
theorem checkKeywords_isOk_iff (hkeys : (ks.map (·.1)).Nodup) (ticker : String) :
    (∃ s, (checkKeywords defaults today ks).result = .ok s) ↔
      ∃ buy sell, keyword? ks .buyCondition = some buy ∧ keyword? ks .sellCondition = some sell ∧
        Condition.IsAccepted ⟨ticker, today⟩ buy ∧ Condition.IsAccepted ⟨ticker, today⟩ sell := by
  constructor
  · rintro ⟨s, h⟩
    obtain ⟨settings, hsettings, h⟩ := checkKeywords_eq_ok.1 h
    obtain ⟨buy, sell, hbuy, hsell, -⟩ := result_ofSettings_eq_ok.1 h
    obtain ⟨e, he, hbuy⟩ := (given?_condition_iff hsettings rfl).1 hbuy
    obtain ⟨e', he', hsell⟩ := (given?_condition_iff hsettings rfl).1 hsell
    have hbuy : Condition.IsAccepted _ e := ⟨buy, hbuy⟩
    have hsell : Condition.IsAccepted _ e' := ⟨sell, hsell⟩
    exact ⟨e, e', he, he', hbuy.of_ticker ticker, hsell.of_ticker ticker⟩
  · rintro ⟨e, e', he, he', hbuy, hsell⟩
    obtain ⟨buy, hbuy⟩ := hbuy.of_ticker (tickerOf defaults ks)
    obtain ⟨sell, hsell⟩ := hsell.of_ticker (tickerOf defaults ks)
    rcases hsettings : (checkFields ⟨tickerOf defaults ks, today⟩ defaults ks).result with
      r | settings
    · -- The condition that ends the check would be one of the two.
      obtain ⟨f, e'', fault, hf, hmem, hfault, -⟩ := checkFields_eq_error hsettings
      have hkeyword := (keyword?_eq_some_iff hkeys).2 hmem
      have haccepted : ∃ c, (Condition.check ⟨tickerOf defaults ks, today⟩ e'').result = .ok c := by
        cases f with
        | buyCondition =>
          obtain rfl := Option.some.inj (he.symm.trans hkeyword)
          exact ⟨buy, hbuy⟩
        | sellCondition =>
          obtain rfl := Option.some.inj (he'.symm.trans hkeyword)
          exact ⟨sell, hsell⟩
        | _ => cases hf
      obtain ⟨c, hc⟩ := haccepted
      rw [(resultOf_eq_ok_iff hf).2 ⟨c, hc, rfl⟩] at hfault
      cases hfault
    · have hbuy := (given?_condition_iff hsettings rfl).2 ⟨e, he, hbuy⟩
      have hsell := (given?_condition_iff hsettings rfl).2 ⟨e', he', hsell⟩
      exact ⟨_, checkKeywords_eq_ok.2
        ⟨settings, hsettings, result_ofSettings_eq_ok.2 ⟨buy, sell, hbuy, hsell, rfl⟩⟩⟩

theorem notes_checkKeywords
    (h : (checkFields ⟨tickerOf defaults ks, today⟩ defaults ks).result = .ok settings) :
    (checkKeywords defaults today ks).notes = (checkTicker defaults ks).notes ++
      ((checkFields ⟨tickerOf defaults ks, today⟩ defaults ks).notes ++ ((noteUnknown ks).notes ++
        (ofSettings ⟨tickerOf defaults ks, today⟩ defaults settings).notes)) := by
  rw [checkKeywords, notes_bind_of_ok (result_checkTicker defaults ks), notes_bind_of_ok h,
    notes_bind_of_ok (result_noteUnknown ks)]

theorem notes_checkArguments (args : List Expr) : (checkArguments defaults today args ks).notes =
    (if args.isEmpty then [] else [.positionalDropped args.length]) ++
      (checkKeywords defaults today ks).notes := by
  unfold checkArguments
  dsimp only
  split
  · rfl
  · exact notes_bind_of_ok rfl _

end Strategy

/-! ### Outcomes -/

namespace Outcome

variable {v : StrategyCheck Strategy}

theorem ok_ofCheck : (ofCheck v).ok = true ↔ ∃ s, v.result = .ok s := by
  rw [ok, Option.isSome_iff_exists]
  exact exists_congr fun s => strategy_ofCheck

theorem mem_keys_changes_ofCheck {s : Strategy} (h : v.result = .ok s) {key : String} :
    key ∈ (ofCheck v).changes.keys ↔ key ∈ v.notes.map Repair.key := by
  rw [ofCheck, h]
  dsimp only
  rw [Changelog.mem_keys_ofMessages, List.map_map]
  rfl

/-- **A rejection** leaves nothing but the changes, and it is among them. -/
theorem of_not_ok (h : (ofCheck v).ok = false) :
    (ofCheck v).sanitized = "" ∧ (ofCheck v).strategy = none ∧
      ∃ r, v.result = .error r ∧ r.key ∈ (ofCheck v).changes.keys := by
  have hnone : (ofCheck v).strategy = none :=
    Option.isNone_iff_eq_none.1 (Option.isSome_eq_false_iff.1 h)
  rcases hresult : v.result with r | s
  · refine ⟨by rw [sanitized, hnone]; rfl, hnone, r, rfl, ?_⟩
    rw [ofCheck, hresult]
    exact Changelog.mem_keys_record.2 (.inr rfl)
  · rw [strategy_ofCheck.2 hresult] at hnone
    cases hnone

end Outcome

end TradeSignals
