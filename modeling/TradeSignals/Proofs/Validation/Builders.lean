import TradeSignals.Proofs.Validation.CallsAlike
import TradeSignals.Proofs.Validation.Faithful

/-!
# Building from values

What a constructor builds is built from the values that its parameters came to, and a builder finds
these by the names of the parameters. It is prepared for values that are missing, or of another
form than the vocabulary promises, or of a constructor that it does not know. Here the builders are
written down with all of that, each step with the *defect* that it would report
(`TradeSignals.Defect`).

None of it happens. Values that come from the arguments of a call have the form that the tag of
their parameter promises, no parameter has two of them, and integers among them are lengths
(`TradeSignals.Values.Complete`). So once every parameter has a value, each builder builds what its
constructor stands for, and it is the same as what is built without looking
(`TradeSignals.Building.condition_ok`, `TradeSignals.Building.series_ok` and the like).
-/

namespace TradeSignals

/-! ### Defects -/

/-- What can be wrong with values that something is to be built from. -/
inductive Defect where
  /-- There is no value for the parameter. -/
  | missing (parameter : String)
  /-- The value is of another form. -/
  | otherForm (parameter : String) (value : Value)
  /-- The integer is no length. -/
  | outOfRange (parameter : String)
  /-- The set has no such member. -/
  | unknownMember (parameter label : String)
  /-- Nothing of the kind is built by the constructor. -/
  | unsupported (constructor : Constructor)

/-- The name of a member of a set, if a value is one. -/
def Value.label? : Value → Option String
  | .positionType value => some (Choice.label value)
  | .interval value => some (Choice.label value)
  | .period value => some (Choice.label value)
  | .priceField value => some (Choice.label value)
  | .stopKind value => some (Choice.label value)
  | _ => none

/-- A value as a member of a set, found by its name. -/
def Value.member {α : Type} [Choice α] (parameter : String) (value : Value) : Except Defect α :=
  match value.label? with
  | none => .error (.otherForm parameter value)
  | some label =>
    match Choice.ofLabel? label with
    | some a => .ok a
    | none => .error (.unknownMember parameter label)

namespace Values

/-- The value of a parameter. -/
def find (vs : Values) (parameter : String) : Except Defect Value :=
  match vs.lookup parameter with
  | some value => .ok value
  | none => .error (.missing parameter)

/-- The series that a parameter came to. -/
def series (vs : Values) (parameter : String) : Except Defect Series := do
  match ← vs.find parameter with
  | .series value => .ok value
  | value => .error (.otherForm parameter value)

/-- The condition that a parameter came to. -/
def condition (vs : Values) (parameter : String) : Except Defect Condition := do
  match ← vs.find parameter with
  | .condition value => .ok value
  | value => .error (.otherForm parameter value)

/-- The length that a parameter came to. -/
def length (vs : Values) (parameter : String) : Except Defect UInt64 := do
  match ← vs.find parameter with
  | .int value => if 0 ≤ value then .ok value.toUInt64 else .error (.outOfRange parameter)
  | value => .error (.otherForm parameter value)

/-- The number that a parameter came to. -/
def float (vs : Values) (parameter : String) : Except Defect Float := do
  match ← vs.find parameter with
  | .float value => .ok value
  | value => .error (.otherForm parameter value)

/-- The retracement level that a parameter came to. -/
def level (vs : Values) (parameter : String) : Except Defect Retracement := do
  match ← vs.find parameter with
  | .retracement value => .ok value
  | value => .error (.otherForm parameter value)

/-- The member of a set that a parameter came to. -/
def member {α : Type} [Choice α] (vs : Values) (parameter : String) : Except Defect α := do
  (← vs.find parameter).member parameter

/-- The integer that the only parameter came to. -/
def onlyInt (vs : Values) (parameter : String) : Except Defect Int64 :=
  match vs.head? with
  | some (_, .int value) => .ok value
  | some (_, value) => .error (.otherForm parameter value)
  | none => .error (.missing parameter)

end Values

/-! ### Builders -/

namespace Building

/-- The comparison of two series. -/
def comparison (relation : Relation) (vs : Values) : Except Defect Condition :=
  return .comparison relation (← vs.series "first_series") (← vs.series "second_series")

/-- The trend of a series. -/
def trend (direction : Direction) (vs : Values) : Except Defect Condition :=
  return .trend direction (← vs.series "series") (← vs.length "number_of_days")

/-- The condition that a constructor builds. -/
def condition (c : Constructor) (vs : Values) : Except Defect Condition :=
  match c with
  | .greaterThan => comparison .above vs
  | .lessThan => comparison .below vs
  | .crossOver => comparison .crossedAbove vs
  | .crossUnder => comparison .crossedBelow vs
  | .afterDays => return .after (← vs.condition "base_condition") (← vs.length "days")
  | .changePerDays =>
    return .changeOver (← vs.series "series") (← vs.float "percent") (← vs.length "number_of_days")
  | .changePerBar => return .change (← vs.series "series") (← vs.float "percent")
  | .uptrend => trend .up vs
  | .downtrend => trend .down vs
  | c => .error (.unsupported c)

/-- A study of a trailing window. -/
def windowed (study : Study) (ticker : String) (vs : Values) : Except Defect Series :=
  return .windowed study ticker (← vs.length "length")

/-- A band beside the average. -/
def band (side : BandSide) (ticker : String) (vs : Values) : Except Defect Series :=
  return .band side ticker (← vs.length "length") (← vs.float "std_dev")

/-- The series that a constructor builds from the bars of a ticker. -/
def series (c : Constructor) (ticker : String) (vs : Values) : Except Defect Series :=
  match c with
  | .price => return .price ticker (← vs.member "price_type")
  | .sma => windowed .sma ticker vs
  | .ema => windowed .ema ticker vs
  | .wma => windowed .wma ticker vs
  | .rsi => windowed .rsi ticker vs
  | .roc => windowed .roc ticker vs
  | .stddev => windowed .stddev ticker vs
  | .atr => windowed .atr ticker vs
  | .obv => return .obv ticker
  | .macd => return .macd ticker (← vs.length "fast_length") (← vs.length "slow_length")
  | .macdSignal =>
    return .macdSignal ticker (← vs.length "fast_length") (← vs.length "slow_length")
      (← vs.length "signal_length")
  | .upperBand => band .upper ticker vs
  | .lowerBand => band .lower ticker vs
  | .retracement => return .retracement ticker (← vs.level "level") (← vs.length "length")
  | c => .error (.unsupported c)

/-- The constant series. -/
def constant (vs : Values) : Except Defect Series :=
  return .constant (← vs.onlyInt "value")

/-- The order size that a constructor builds. -/
def orderSize (c : Constructor) (vs : Values) : Except Defect OrderSize :=
  match c with
  | .contracts => return .contracts (← vs.onlyInt "value")
  | .usd => return .usd (← vs.float "value")
  | .percentOfPortfolio => return .percentOfPortfolio (← vs.float "value")
  | c => .error (.unsupported c)

/-- The commission that a constructor builds. -/
def commission (c : Constructor) (vs : Values) : Except Defect (Option Commission) := do
  let value ← vs.float "value"
  match c with
  | .fixedCommission => return some (.fixed value)
  | .percentCommission => return some (.percent value)
  | c => .error (.unsupported c)

/-- A stop loss. -/
def stopLoss (_ : Constructor) (vs : Values) : Except Defect (Option (StopLoss Float)) :=
  return some ⟨← vs.member "stop_loss_type", ← vs.float "percent"⟩

/-- A take profit. -/
def takeProfit (_ : Constructor) (vs : Values) : Except Defect (Option (TakeProfit Float)) :=
  return some ⟨← vs.float "percent"⟩

end Building

/-! ### What values are like -/

namespace Reading

/-- **What a tag makes of an argument** is of the form of the tag. -/
theorem tag_of_value {cx : Context} {tag : Tag} {r : Reading} {v : Value}
    (h : (r.value cx tag).result = .ok v) : v.tag = tag := by
  cases tag with
  | int | float | bool | ticker | date | retracement =>
    obtain ⟨a, -, rfl⟩ := Except.map_eq_ok.1 h
    rfl
  | choice kind => cases kind <;> obtain ⟨a, -, rfl⟩ := Except.map_eq_ok.1 h <;> rfl
  | condition | series | orderSize | commission | stopLoss | takeProfit =>
    obtain ⟨a, -, rfl⟩ := Verdict.result_map_eq_ok.1 h
    rfl

/-- The value of a parameter is of the form of its tag, and in range for the owner. -/
theorem tag_of_parameter {cx : Context} {owner : Option Constructor} {slot : Slot} {r : Reading}
    {v : Value} (h : (r.parameter cx owner slot).result = .ok v) :
    v.tag = slot.tag ∧ v.outOfRange? owner slot.name = none := by
  obtain ⟨value, hvalue, h⟩ := Verdict.result_bind_eq_ok.1 h
  split at h
  · cases h
  · next hrange =>
    cases h
    exact ⟨tag_of_value hvalue, hrange⟩

end Reading

namespace Values

/-- **Values for all parameters of a constructor**, one for each, of the form that the vocabulary
promises and in range. -/
structure Complete (c : Constructor) (vs : Values) : Prop where
  /-- No parameter has two values. -/
  nodup : (vs.map (·.1)).Nodup
  /-- Each value is one of a parameter, of the form of its tag and in range for it. -/
  typed : ∀ p ∈ vs, ∃ slot ∈ c.slots, slot.name = p.1 ∧ p.2.tag = slot.tag ∧
    p.2.outOfRange? (some c) slot.name = none
  /-- Every parameter has a value. -/
  withoutValue : Reading.withoutValue c vs = []

variable {c : Constructor} {vs : Values}

theorem withoutValue_eq_nil :
    Reading.withoutValue c vs = [] ↔ ∀ slot ∈ c.slots, ∃ v, vs.lookup slot.name = some v := by
  rw [Reading.withoutValue, List.filter_eq_nil_iff, List.forall_mem_map]
  refine forall₂_congr fun slot _ => ?_
  rw [Option.isNone_iff_eq_none, ← ne_eq, Option.ne_none_iff_exists']

/-- Values that are found among arguments of a call are complete if none is missing. -/
theorem complete_found {cx : Context} {args : List Reading} {ks : List (String × Reading)}
    (hvs : vs = (Binding.ofCall c args ks).bound.filterMap (Reading.found? cx c))
    (h : Reading.withoutValue c vs = []) : vs.Complete c := by
  obtain ⟨hnames, hslots⟩ := Binding.bound_ofCall c args ks
  subst hvs
  refine ⟨(Reading.keys_found_sublist cx c _).nodup hnames, fun p hp => ?_, h⟩
  obtain ⟨q, hq, hfound⟩ := List.mem_filterMap.1 hp
  obtain ⟨v, hv, rfl⟩ := Option.map_eq_some_iff.1 hfound
  have hparameter : (q.2.parameter cx (some c) q.1).result = .ok v := by
    cases hresult : (q.2.parameter cx (some c) q.1).result with
    | error fault => rw [hresult] at hv; cases hv
    | ok w => rw [hresult] at hv; cases hv; rfl
  exact ⟨q.1, hslots q hq, rfl, Reading.tag_of_parameter hparameter⟩

namespace Complete

/-- The value that a parameter came to. -/
theorem lookup (h : vs.Complete c) {slot : Slot} (hslot : slot ∈ c.slots) :
    ∃ v, vs.lookup slot.name = some v ∧ v.tag = slot.tag ∧
      v.outOfRange? (some c) slot.name = none := by
  obtain ⟨v, hv⟩ := withoutValue_eq_nil.1 h.withoutValue slot hslot
  obtain ⟨slot', hslot', hname, hv'⟩ := h.typed _ (Reading.mem_of_lookup hv)
  obtain rfl := List.inj_on_of_nodup_map (Binding.nodup_slots c) hslot' hslot hname
  exact ⟨v, hv, hv'⟩

variable (parameter : String)

theorem series (h : vs.Complete c) (hslot : ⟨parameter, .series⟩ ∈ c.slots) :
    ∃ s, vs.series parameter = .ok s ∧ vs.series? parameter = some s := by
  obtain ⟨v, hv, htag, -⟩ := h.lookup hslot
  cases v with
  | series s => exact ⟨s, by rw [Values.series, find, hv]; rfl, by rw [series?, hv]⟩
  | _ => cases htag

theorem condition (h : vs.Complete c) (hslot : ⟨parameter, .condition⟩ ∈ c.slots) :
    ∃ k, vs.condition parameter = .ok k ∧ vs.condition? parameter = some k := by
  obtain ⟨v, hv, htag, -⟩ := h.lookup hslot
  cases v with
  | condition k => exact ⟨k, by rw [Values.condition, find, hv]; rfl, by rw [condition?, hv]⟩
  | _ => cases htag

theorem float (h : vs.Complete c) (hslot : ⟨parameter, .float⟩ ∈ c.slots) :
    ∃ x, vs.float parameter = .ok x ∧ vs.float? parameter = some x := by
  obtain ⟨v, hv, htag, -⟩ := h.lookup hslot
  cases v with
  | float x => exact ⟨x, by rw [Values.float, find, hv]; rfl, by rw [float?, hv]⟩
  | _ => cases htag

theorem level (h : vs.Complete c) (hslot : ⟨parameter, .retracement⟩ ∈ c.slots) :
    ∃ x, vs.level parameter = .ok x ∧ vs.retracement? parameter = some x := by
  obtain ⟨v, hv, htag, -⟩ := h.lookup hslot
  cases v with
  | retracement x => exact ⟨x, by rw [Values.level, find, hv]; rfl, by rw [retracement?, hv]⟩
  | _ => cases htag

/-- An integer in range is a length, unless it is the value of the constant series. -/
theorem length (h : vs.Complete c) (hc : c ≠ .const) (hslot : ⟨parameter, .int⟩ ∈ c.slots) :
    ∃ n, vs.length parameter = .ok n ∧ vs.length? parameter = some n := by
  obtain ⟨v, hv, htag, hrange⟩ := h.lookup hslot
  cases v with
  | int n =>
    have hone : 1 ≤ n := (Reading.value_int hrange).resolve_left fun heq => hc (Option.some.inj heq)
    have hzero : 0 ≤ n := Int64.le_trans (by decide) hone
    refine ⟨n.toUInt64, ?_, by rw [length?, int?, hv]; rfl⟩
    rw [Values.length, find, hv]
    exact if_pos hzero
  | _ => cases htag

theorem priceField (h : vs.Complete c) (hslot : ⟨parameter, .choice .priceField⟩ ∈ c.slots) :
    ∃ x, vs.member parameter = .ok x ∧ vs.priceField? parameter = some x := by
  obtain ⟨v, hv, htag, -⟩ := h.lookup hslot
  cases v with
  | priceField x =>
    refine ⟨x, ?_, by rw [priceField?, hv]⟩
    rw [Values.member, find, hv]
    cases x <;> rfl
  | _ => cases htag

theorem stopKind (h : vs.Complete c) (hslot : ⟨parameter, .choice .stopKind⟩ ∈ c.slots) :
    ∃ x, vs.member parameter = .ok x ∧ vs.stopKind? parameter = some x := by
  obtain ⟨v, hv, htag, -⟩ := h.lookup hslot
  cases v with
  | stopKind x =>
    refine ⟨x, ?_, by rw [stopKind?, hv]⟩
    rw [Values.member, find, hv]
    cases x <;> rfl
  | _ => cases htag

/-- If there is only one parameter, its value is the only one. -/
theorem onlyInt (h : vs.Complete c) (hslots : c.slots = [⟨parameter, .int⟩]) :
    ∃ n, vs.onlyInt parameter = .ok n ∧ vs.int? parameter = some n := by
  obtain ⟨v, hv, htag, -⟩ := h.lookup (hslots ▸ List.mem_cons_self)
  have hkeys : ∀ key ∈ vs.map (·.1), key = parameter := by
    refine List.forall_mem_map.2 fun p hp => ?_
    obtain ⟨slot, hslot, hname, -⟩ := h.typed p hp
    rw [hslots] at hslot
    rw [← hname, List.mem_singleton.1 hslot]
  cases v with
  | int n =>
    refine ⟨n, ?_, by rw [int?, hv]⟩
    -- The first value is that of the parameter, since every value is.
    cases vs with
    | nil => cases hv
    | cons p vs =>
      obtain ⟨key, w⟩ := p
      obtain rfl : key = parameter := hkeys key List.mem_cons_self
      rw [List.lookup_cons_self] at hv
      cases hv
      rfl
  | _ => cases htag

end Complete

end Values

/-! ### Builders build -/

namespace Building

variable {c : Constructor} {vs : Values}

theorem comparison_ok (h : vs.Complete c) (hfirst : ⟨"first_series", .series⟩ ∈ c.slots)
    (hsecond : ⟨"second_series", .series⟩ ∈ c.slots) (relation : Relation) :
    ∃ k, comparison relation vs = .ok k ∧ Reading.comparison? relation vs = some k ∧
      k.name = relation.constructor.name := by
  obtain ⟨a, ha, ha'⟩ := h.series _ hfirst
  obtain ⟨b, hb, hb'⟩ := h.series _ hsecond
  refine ⟨.comparison relation a b, ?_, ?_, rfl⟩
  · rw [comparison, ha, hb]
    rfl
  · rw [Reading.comparison?, ha', hb']
    rfl

theorem trend_ok (h : vs.Complete c) (hseries : ⟨"series", .series⟩ ∈ c.slots)
    (hdays : ⟨"number_of_days", .int⟩ ∈ c.slots) (hc : c ≠ .const) (direction : Direction) :
    ∃ k, trend direction vs = .ok k ∧ Reading.trend? direction vs = some k ∧
      k.name = direction.constructor.name := by
  obtain ⟨s, hs, hs'⟩ := h.series _ hseries
  obtain ⟨n, hn, hn'⟩ := h.length _ hc hdays
  refine ⟨.trend direction s n, ?_, ?_, rfl⟩
  · rw [trend, hs, hn]
    rfl
  · rw [Reading.trend?, hs', hn']
    rfl

/-- **From values for all of its parameters a constructor of conditions builds one** that goes by
its name, unless it takes any number of conditions. -/
theorem condition_ok (h : vs.Complete c) (hcategory : c.category = .condition)
    (hfixed : c.variadic = false) :
    ∃ k, condition c vs = .ok k ∧ Reading.condition? c vs = some k ∧ k.name = c.name := by
  cases c with
  | greaterThan | lessThan | crossOver | crossUnder =>
    exact comparison_ok h (by decide) (by decide) _
  | uptrend | downtrend => exact trend_ok h (by decide) (by decide) (by decide) _
  | afterDays =>
    obtain ⟨base, hbase, hbase'⟩ := h.condition "base_condition" (by decide)
    obtain ⟨n, hn, hn'⟩ := h.length "days" (by decide) (by decide)
    refine ⟨.after base n, ?_, ?_, rfl⟩
    · rw [condition, hbase, hn]
      rfl
    · rw [Reading.condition?, hbase', hn']
      rfl
  | changePerDays =>
    obtain ⟨s, hs, hs'⟩ := h.series "series" (by decide)
    obtain ⟨x, hx, hx'⟩ := h.float "percent" (by decide)
    obtain ⟨n, hn, hn'⟩ := h.length "number_of_days" (by decide) (by decide)
    refine ⟨.changeOver s x n, ?_, ?_, rfl⟩
    · rw [condition, hs, hx, hn]
      rfl
    · rw [Reading.condition?, hs', hx', hn']
      rfl
  | changePerBar =>
    obtain ⟨s, hs, hs'⟩ := h.series "series" (by decide)
    obtain ⟨x, hx, hx'⟩ := h.float "percent" (by decide)
    refine ⟨.change s x, ?_, ?_, rfl⟩
    · rw [condition, hs, hx]
      rfl
    · rw [Reading.condition?, hs', hx']
      rfl
  | and | or => cases hfixed
  | _ => cases hcategory

theorem windowed_ok (h : vs.Complete c) (hlength : ⟨"length", .int⟩ ∈ c.slots) (hc : c ≠ .const)
    (study : Study) (ticker : String) : ∃ s, windowed study ticker vs = .ok s ∧
      Reading.windowed? study ticker vs = some s ∧ s.name = study.constructor.name := by
  obtain ⟨n, hn, hn'⟩ := h.length _ hc hlength
  refine ⟨.windowed study ticker n, ?_, ?_, rfl⟩
  · rw [windowed, hn]
    rfl
  · rw [Reading.windowed?, hn']
    rfl

theorem band_ok (h : vs.Complete c) (hlength : ⟨"length", .int⟩ ∈ c.slots)
    (hdeviations : ⟨"std_dev", .float⟩ ∈ c.slots) (hc : c ≠ .const) (side : BandSide)
    (ticker : String) : ∃ s, band side ticker vs = .ok s ∧
      Reading.band? side ticker vs = some s ∧ s.name = side.constructor.name := by
  obtain ⟨n, hn, hn'⟩ := h.length _ hc hlength
  obtain ⟨x, hx, hx'⟩ := h.float _ hdeviations
  refine ⟨.band side ticker n x, ?_, ?_, rfl⟩
  · rw [band, hn, hx]
    rfl
  · rw [Reading.band?, hn', hx']
    rfl

/-- **From values for all of its parameters a constructor of series with a ticker builds one** that
goes by its name. -/
theorem series_ok (h : vs.Complete c) (hticker : c.takesTicker = true) (ticker : String) :
    ∃ s, series c ticker vs = .ok s ∧ Reading.series? c ticker vs = some s ∧ s.name = c.name := by
  cases c with
  | sma | ema | wma | rsi | roc | stddev | atr => exact windowed_ok h (by decide) (by decide) _ _
  | upperBand | lowerBand => exact band_ok h (by decide) (by decide) (by decide) _ _
  | price =>
    obtain ⟨x, hx, hx'⟩ := h.priceField "price_type" (by decide)
    refine ⟨.price ticker x, ?_, ?_, rfl⟩
    · rw [series, hx]
      rfl
    · rw [Reading.series?, hx']
      rfl
  | obv => exact ⟨.obv ticker, rfl, rfl, rfl⟩
  | macd =>
    obtain ⟨m, hm, hm'⟩ := h.length "fast_length" (by decide) (by decide)
    obtain ⟨n, hn, hn'⟩ := h.length "slow_length" (by decide) (by decide)
    refine ⟨.macd ticker m n, ?_, ?_, rfl⟩
    · rw [series, hm, hn]
      rfl
    · rw [Reading.series?, hm', hn']
      rfl
  | macdSignal =>
    obtain ⟨m, hm, hm'⟩ := h.length "fast_length" (by decide) (by decide)
    obtain ⟨n, hn, hn'⟩ := h.length "slow_length" (by decide) (by decide)
    obtain ⟨k, hk, hk'⟩ := h.length "signal_length" (by decide) (by decide)
    refine ⟨.macdSignal ticker m n k, ?_, ?_, rfl⟩
    · rw [series, hm, hn, hk]
      rfl
    · rw [Reading.series?, hm', hn', hk']
      rfl
  | retracement =>
    obtain ⟨x, hx, hx'⟩ := h.level "level" (by decide)
    obtain ⟨n, hn, hn'⟩ := h.length "length" (by decide) (by decide)
    refine ⟨.retracement ticker x n, ?_, ?_, rfl⟩
    · rw [series, hx, hn]
      rfl
    · rw [Reading.series?, hx', hn']
      rfl
  | _ => cases hticker

/-- The constant series is built from the only value. -/
theorem constant_ok (h : vs.Complete .const) : ∃ s, constant vs = .ok s ∧
    (vs.int? "value").map .constant = some s ∧ s.name = Constructor.const.name := by
  obtain ⟨n, hn, hn'⟩ := h.onlyInt "value" rfl
  refine ⟨.constant n, ?_, ?_, rfl⟩
  · rw [constant, hn]
    rfl
  · rw [hn']
    rfl

theorem orderSize_ok (h : vs.Complete c) (hcategory : c.category = .orderSize) :
    ∃ x, orderSize c vs = .ok x ∧ Reading.orderSize? c vs = some x := by
  cases c with
  | contracts =>
    obtain ⟨n, hn, hn'⟩ := h.onlyInt "value" rfl
    refine ⟨.contracts n, ?_, ?_⟩
    · rw [orderSize, hn]
      rfl
    · rw [Reading.orderSize?, hn']
      rfl
  | usd | percentOfPortfolio =>
    obtain ⟨x, hx, hx'⟩ := h.float "value" (by decide)
    rw [orderSize, Reading.orderSize?, hx, hx']
    exact ⟨_, rfl, rfl⟩
  | _ => cases hcategory

theorem commission_ok (h : vs.Complete c) (hcategory : c.category = .commission) :
    ∃ x, commission c vs = .ok x ∧ Reading.commission? c vs = some x := by
  cases c with
  | fixedCommission | percentCommission =>
    obtain ⟨x, hx, hx'⟩ := h.float "value" (by decide)
    rw [commission, Reading.commission?, hx, hx']
    exact ⟨_, rfl, rfl⟩
  | _ => cases hcategory

theorem stopLoss_ok (h : vs.Complete c) (hcategory : c.category = .stopLoss) :
    ∃ x, stopLoss c vs = .ok x ∧ Reading.stopLoss? c vs = some x := by
  cases c with
  | stopLoss =>
    obtain ⟨k, hk, hk'⟩ := h.stopKind "stop_loss_type" (by decide)
    obtain ⟨x, hx, hx'⟩ := h.float "percent" (by decide)
    rw [stopLoss, Reading.stopLoss?, hk, hk', hx, hx']
    exact ⟨_, rfl, rfl⟩
  | _ => cases hcategory

theorem takeProfit_ok (h : vs.Complete c) (hcategory : c.category = .takeProfit) :
    ∃ x, takeProfit c vs = .ok x ∧ Reading.takeProfit? c vs = some x := by
  cases c with
  | takeProfit =>
    obtain ⟨x, hx, hx'⟩ := h.float "percent" (by decide)
    rw [takeProfit, Reading.takeProfit?, hx, hx']
    exact ⟨_, rfl, rfl⟩
  | _ => cases hcategory

end Building

end TradeSignals
