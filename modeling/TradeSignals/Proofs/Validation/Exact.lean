import Mathlib.Data.List.Nodup
import TradeSignals.Proofs.Decimal.Order
import TradeSignals.Proofs.Strategy.InRange
import TradeSignals.Validation.Changelog
import TradeSignals.Validation.Reading

/-!
# Reading what was written

Validation repairs what it cannot use. What is in range it takes as it stands: a condition,
a series or a setting in range that is written as an expression and read again is the same,
in every context, and nothing is noted on the way (`TradeSignals.Condition.check_toExpr`,
`TradeSignals.Series.check_toExpr` and their likes for settings).

The calls that are written give each parameter of their constructor exactly once and in
order. So their arguments go where they should, and it only has to be said of each
parameter that its argument is read as its value.

What is noted goes into a changelog sooner or later. Checking with a changelog at hand
(`TradeSignals.Check.recordedIn`) leaves it as it was if the argument is in range
(`TradeSignals.Check.recordedIn_toExpr`).
-/

namespace TradeSignals

/-! ### Binding -/

namespace Binding

variable {α : Type}

/-- A parameter of a constructor is found by its keyword. -/
theorem slot?_name (c : Constructor) : ∀ slot ∈ c.slots, c.slot? slot.name = some slot := by
  cases c <;> decide

theorem nodup_slots (c : Constructor) : (c.slots.map (·.name)).Nodup := by
  cases c <;> decide

/-- **Positional arguments** are bound side by side with the parameters, and what is left of them
is reported, each with its number. -/
theorem positional_eq (n : ℕ) (slots : List Slot) (args : List α) : positional n slots args =
    ⟨slots.zip args,
      (args.drop slots.length).mapIdx fun i a => .surplus (n + slots.length + i) a⟩ := by
  induction args generalizing n slots with
  | nil => cases slots <;> simp [positional]
  | cons a args ih =>
    cases slots with
    | nil =>
      rw [positional, ih]
      simp [List.mapIdx_cons, Nat.add_comm, Nat.add_left_comm]
    | cons slot slots =>
      rw [positional, ih]
      simp [Nat.add_comm, Nat.add_left_comm]

/-- The parameters with a positional argument are the first ones. -/
theorem sublist_positional (n : ℕ) (slots : List Slot) (args : List α) :
    ((positional n slots args).bound.map (·.1)).Sublist slots := by
  rw [positional_eq, List.zip_eq_zip_take_min, List.map_fst_zip (by simp)]
  exact List.take_sublist _ _

theorem foldl_keyword {c : Constructor} {bound args : List (Slot × α)}
    (hslot : ∀ a ∈ args, c.slot? a.1.name = some a.1)
    (hnodup : ((bound ++ args).map (·.1.name)).Nodup) :
    (args.map fun a => (a.1.name, a.2)).foldl (keyword c) ⟨bound, []⟩ = ⟨bound ++ args, []⟩ := by
  induction args generalizing bound with
  | nil => simp
  | cons a args ih =>
    have hfree : ¬binds (⟨bound, []⟩ : Binding α) a.1.name = true := by
      rw [binds, List.any_eq_true]
      rintro ⟨b, hb, heq⟩
      rw [List.map_append, List.nodup_append] at hnodup
      exact hnodup.2.2 b.1.name (List.mem_map_of_mem hb) a.1.name
        (List.mem_map_of_mem List.mem_cons_self) (by simpa using heq)
    have hstep : keyword c ⟨bound, []⟩ (a.1.name, a.2) = ⟨bound ++ [a], []⟩ := by
      rw [keyword, hslot a List.mem_cons_self]
      dsimp only
      rw [if_neg hfree]
    rw [List.map_cons, List.foldl_cons, hstep,
      ih (fun b hb => hslot b (List.mem_cons_of_mem _ hb)) (by simpa using hnodup)]
    simp

/-- **Keyword arguments that are parameters in order** go to these parameters. -/
theorem ofCall_keywords {c : Constructor} {args : List (Slot × α)}
    (h : (args.map (·.1)).Sublist c.slots) :
    ofCall c [] (args.map fun a => (a.1.name, a.2)) = ⟨args, []⟩ := by
  have hnames := (h.map (·.name)).nodup (nodup_slots c)
  rw [List.map_map] at hnames
  have hpositional : positional 0 c.slots ([] : List α) = ⟨[], []⟩ := by
    cases c.slots <;> rfl
  rw [ofCall, hpositional]
  exact foldl_keyword (fun a ha => slot?_name c a.1 (h.subset (List.mem_map_of_mem ha))) hnames

/-- No parameter is missing if each has an argument. -/
theorem missing_of_all {c : Constructor} {args : List (Slot × α)}
    (h : args.map (·.1) = c.slots) : missing c ⟨args, []⟩ = [] := by
  rw [missing, List.filter_eq_nil_iff]
  intro key hkey
  rw [← h, List.map_map, List.mem_map] at hkey
  obtain ⟨a, ha, rfl⟩ := hkey
  rw [Bool.not_eq_true', Bool.not_eq_false, binds, List.any_eq_true]
  exact ⟨a, ha, beq_self_eq_true _⟩

end Binding

namespace Reading

variable {cx : Context} {c : Constructor}

/-! ### Calls that give each parameter once -/

/-- An argument for a parameter and the value that it is read as. -/
structure Exact (cx : Context) (c : Constructor) (slot : Slot) (e : Expr) (v : Value) : Prop where
  /-- The argument is read as the value, and nothing is noted. -/
  parameter_eq : (of cx e).parameter cx (some c) slot = pure v

/-- Arguments of a call: parameters, expressions and values. -/
abbrev Arguments := List (Slot × Expr × Value)

/-- The keyword arguments that are written. -/
def Arguments.keywords (args : Arguments) : List (String × Expr) :=
  args.map fun a => (a.1.name, a.2.1)

/-- The values that are read. -/
def Arguments.values (args : Arguments) : Values :=
  args.map fun a => (a.1.name, a.2.2)

theorem usableValues_exact {args : Arguments} (h : ∀ a ∈ args, Exact cx c a.1 a.2.1 a.2.2) :
    usableValues cx c (args.map fun a => (a.1, of cx a.2.1)) = pure args.values := by
  induction args with
  | nil => rfl
  | cons a args ih =>
    rw [List.map_cons, usableValues, (h a List.mem_cons_self).parameter_eq,
      ih fun b hb => h b (List.mem_cons_of_mem _ hb)]
    rfl

theorem allValues_exact {args : Arguments} (h : ∀ a ∈ args, Exact cx c a.1 a.2.1 a.2.2) :
    allValues cx c (args.map fun a => (a.1, of cx a.2.1)) = pure args.values := by
  induction args with
  | nil => rfl
  | cons a args ih =>
    rw [List.map_cons, allValues, (h a List.mem_cons_self).parameter_eq,
      ih fun b hb => h b (List.mem_cons_of_mem _ hb)]
    rfl

theorem ofCall_exact {args : Arguments} (hslots : args.map (·.1) = c.slots) :
    Binding.ofCall c [] (args.keywords.map fun ke => (ke.1, of cx ke.2)) =
      ⟨args.map fun a => (a.1, of cx a.2.1), []⟩ := by
  have h : Binding.ofCall c [] ((args.map fun a => (a.1, of cx a.2.1)).map
      fun a => (a.1.name, a.2)) = _ :=
    Binding.ofCall_keywords (by rw [List.map_map]; exact hslots ▸ .refl _)
  rw [List.map_map] at h
  rw [Arguments.keywords, List.map_map]
  exact h

/-- **The values of a call** that gives each parameter once are those of its arguments. -/
theorem callValues_exact {args : Arguments} (hslots : args.map (·.1) = c.slots)
    (h : ∀ a ∈ args, Exact cx c a.1 a.2.1 a.2.2) :
    callValues cx c [] (args.keywords.map fun ke => (ke.1, of cx ke.2)) = pure args.values := by
  rw [callValues, ofCall_exact hslots]
  dsimp only
  rw [usableValues_exact h]
  rfl

/-- **A setting** that gives each parameter once is built from the values of its arguments. -/
theorem settingOfCall_exact {α : Type} {category : Category}
    {build? : Constructor → Values → Option α} {a : α} (args : Arguments)
    (hcategory : c.category = category) (hslots : args.map (·.1) = c.slots)
    (h : ∀ a ∈ args, Exact cx c a.1 a.2.1 a.2.2) (hbuild : build? c args.values = some a) :
    settingOfCall cx category build? c.name []
      (args.keywords.map fun ke => (ke.1, of cx ke.2)) = pure a := by
  have hname : Constructor.ofNameIn? category c.name = some c := by
    rw [Constructor.ofNameIn?, Constructor.ofName?_name, Option.filter_some,
      if_pos (decide_eq_true hcategory)]
  have hmissing : ¬Binding.missing c ⟨args.map fun a => (a.1, of cx a.2.1), []⟩ ≠ [] := by
    rw [not_not]
    exact Binding.missing_of_all (by rw [List.map_map]; exact hslots)
  rw [settingOfCall, hname]
  dsimp only
  rw [ofCall_exact hslots]
  dsimp only
  rw [if_neg hmissing, allValues_exact h, pure_bind, hbuild]

theorem resolve_name {category : Category} (h : c.category = category) :
    resolve category c.name = pure c := by
  rw [resolve, Constructor.ofName?_name]
  dsimp only
  rw [if_pos h]

/-! ### Single arguments -/

theorem exact_int {slot : Slot} (hslot : slot.tag = .int) {v : Int64}
    (h : c = .const ∨ 1 ≤ v) : Exact cx c slot (.int v) (.int v) := by
  refine ⟨?_⟩
  have hrange : ¬(some c ≠ some .const ∧ v < 1) := by
    rintro ⟨hc, hv⟩
    rcases h with rfl | h
    · exact hc rfl
    · exact absurd hv (Int64.not_lt.2 h)
  have hvalue : (of cx (.int v)).value cx slot.tag = pure (.int v) := by
    rw [hslot]
    rfl
  rw [parameter, hvalue, pure_bind, Value.outOfRange?, if_neg hrange]

theorem exact_float {slot : Slot} (hslot : slot.tag = .float) {x : Float}
    (hx : x.isFinite = true) (hlimit : ∀ limit ∈ Limit.of (some c) slot.name,
      limit.excludes x = false) : Exact cx c slot (.float x) (.float x) := by
  refine ⟨?_⟩
  have hnone : (Limit.of (some c) slot.name).find? (·.excludes x) = none := by
    rw [List.find?_eq_none]
    intro limit hmem
    rw [hlimit limit hmem]
    exact Bool.false_ne_true
  have hvalue : (of cx (.float x)).value cx slot.tag = pure (.float x) := by
    rw [hslot]
    change Verdict.ofResult (Value.float <$> Plain.finite x) = _
    rw [Plain.finite, if_pos hx]
    rfl
  rw [parameter, hvalue, pure_bind, Value.outOfRange?, hnone]
  rfl

/-- An amount above zero is not excluded where amounts are to be above zero. -/
theorem within_aboveZero {x : Float} (h : 0 < x) :
    ∀ limit ∈ [Limit.aboveZero], limit.excludes x = false :=
  List.forall_mem_singleton.2 (decide_eq_false (FloatOrder.not_le_of_lt h))

/-- A value that is no number is in range. -/
theorem exact_of_value {slot : Slot} {e : Expr} {v : Value}
    (hvalue : (of cx e).value cx slot.tag = pure v)
    (hrange : v.outOfRange? (some c) slot.name = none) :
    Exact cx c slot e v := by
  refine ⟨?_⟩
  rw [parameter, hvalue, pure_bind, hrange]

/-- An argument is what the reader of its kind makes of it. -/
theorem exact_of_read {α : Type} {slot : Slot} {e : Expr} {read : Check α} {toValue : α → Value}
    {a : α} (hvalue : (of cx e).value cx slot.tag = toValue <$> read) (h : read = pure a)
    (hrange : (toValue a).outOfRange? (some c) slot.name = none) :
    Exact cx c slot e (toValue a) := by
  refine exact_of_value ?_ hrange
  rw [hvalue, h]
  rfl

theorem exact_series {slot : Slot} (hslot : slot.tag = .series) {e : Expr} {s : Series}
    (h : Series.check cx e = pure s) : Exact cx c slot e (.series s) :=
  exact_of_read (by rw [hslot]; rfl) h rfl

theorem exact_condition {slot : Slot} (hslot : slot.tag = .condition) {e : Expr} {s : Condition}
    (h : Condition.check cx e = pure s) : Exact cx c slot e (.condition s) :=
  exact_of_read (by rw [hslot]; rfl) h rfl

theorem exact_length {slot : Slot} (hslot : slot.tag = .int) {n : UInt64}
    (h : LengthInRange n) : Exact cx c slot (Series.lengthExpr n) (.int n.toInt64) := by
  refine exact_int hslot (.inr ?_)
  rw [Int64.le_iff_toInt_le, h.toInt]
  exact Int.ofNat_le.2 h.1

/-- A member of one of the sets is read as itself. -/
theorem exact_choice {α : Type} [Choice α] {slot : Slot} {kind : ChoiceKind} {toValue : α → Value}
    (hslot : slot.tag = .choice kind) (hvalue : ∀ e, Plain.choiceValue kind e =
      toValue <$> (Plain.choice kind e : Except Fault α)) {a : α}
    (hlabel : Choice.ofLabel? (Choice.label a) = some a)
    (hrange : (toValue a).outOfRange? (some c) slot.name = none) :
    Exact cx c slot (Strategy.memberExpr kind a) (toValue a) := by
  refine exact_of_value ?_ hrange
  rw [hslot]
  show Verdict.ofResult
    (Plain.choiceValue kind (of cx (.member kind.name (Choice.label a))).expr) = _
  rw [expr_of, hvalue, Plain.choice, if_pos rfl, hlabel]
  rfl

end Reading

open Reading

/-! ### Series -/

namespace Series

theorem isTickerKey_slots {c : Constructor} (h : c.category = .series) :
    ∀ slot ∈ c.slots, (slot.name == "ticker") = false := by
  revert h
  cases c <;> decide

/-- A series with a ticker is read back if its parameters are. -/
theorem check_of_exact {cx : Context} {s : Series} {ticker : String} (args : Arguments)
    (htakes : s.constructor.takesTicker = true) (hticker : Ticker.isValid ticker = true)
    (hpositional : s.positional = [.quoted ticker]) (hkeywords : s.keywords = args.keywords)
    (hslots : args.map (·.1) = s.constructor.slots)
    (hargs : ∀ a ∈ args, Exact cx s.constructor a.1 a.2.1 a.2.2)
    (hbuild : series? s.constructor ticker args.values = some s) :
    check cx s.toExpr = pure s := by
  have hkeys : ∀ ke ∈ args.keywords.map fun ke => (ke.1, of cx ke.2), isTickerKey ke = false := by
    intro ke hke
    rw [Arguments.keywords, List.map_map, List.mem_map] at hke
    obtain ⟨a, ha, rfl⟩ := hke
    exact isTickerKey_slots (category_constructor s) a.1 (hslots ▸ List.mem_map_of_mem ha)
  have hfilter : (args.keywords.map fun ke => (ke.1, of cx ke.2)).filter isTickerKey = [] :=
    List.filter_eq_nil_iff.2 fun ke hke => by rw [hkeys ke hke]; exact Bool.false_ne_true
  have hrest : (args.keywords.map fun ke => (ke.1, of cx ke.2)).filter (fun k => !isTickerKey k) =
      args.keywords.map fun ke => (ke.1, of cx ke.2) :=
    List.filter_eq_self.2 fun ke hke => by rw [hkeys ke hke]; rfl
  have hgiven : seriesTicker cx s.constructor [of cx (.quoted ticker)] = pure ticker := by
    have hplain : Plain.ticker (.quoted ticker) = .ok ticker := by
      rw [Plain.ticker, if_pos hticker]
    rw [seriesTicker, expr_of, hplain]
    rfl
  rw [check, toExpr, of_call, hpositional, hkeywords]
  change seriesOfCall cx s.constructor.name _ _ = _
  rw [seriesOfCall, resolve_name (category_constructor s), pure_bind, if_pos htakes,
    tickerArguments, hfilter, hrest, List.map_singleton]
  change (seriesTicker cx s.constructor [of cx (.quoted ticker)] >>= _) = _
  rw [hgiven, pure_bind, List.drop_one, List.tail_cons, callValues_exact hslots hargs, pure_bind,
    hbuild]
  rfl

/-- **A series in range is read back**, and nothing is noted. -/
theorem check_toExpr (cx : Context) {s : Series} (h : s.InRange) : check cx s.toExpr = pure s := by
  cases s with
  | constant value => rfl
  | obv ticker =>
    exact check_of_exact [] rfl h rfl rfl rfl (by simp) rfl
  | price ticker field =>
    refine check_of_exact [(⟨"price_type", .choice .priceField⟩, _, .priceField field)]
      rfl h rfl rfl rfl (List.forall_mem_singleton.2 ?_) rfl
    exact exact_choice rfl (fun _ => rfl) (by cases field <;> decide) rfl
  | windowed study ticker length =>
    refine check_of_exact [(⟨"length", .int⟩, _, .int length.toInt64)]
      (by cases study <;> rfl) h.1 rfl rfl (by cases study <;> rfl)
      (List.forall_mem_singleton.2 (exact_length rfl h.2)) (by cases study <;> rfl)
  | macd ticker fast slow =>
    refine check_of_exact [(⟨"fast_length", .int⟩, _, .int fast.toInt64),
      (⟨"slow_length", .int⟩, _, .int slow.toInt64)] rfl h.1 rfl rfl rfl ?_ rfl
    exact List.forall_mem_cons.2 ⟨exact_length rfl h.2.1,
      List.forall_mem_singleton.2 (exact_length rfl h.2.2)⟩
  | macdSignal ticker fast slow signal =>
    refine check_of_exact [(⟨"fast_length", .int⟩, _, .int fast.toInt64),
      (⟨"slow_length", .int⟩, _, .int slow.toInt64),
      (⟨"signal_length", .int⟩, _, .int signal.toInt64)] rfl h.1 rfl rfl rfl ?_ rfl
    exact List.forall_mem_cons.2 ⟨exact_length rfl h.2.1, List.forall_mem_cons.2
      ⟨exact_length rfl h.2.2.1, List.forall_mem_singleton.2 (exact_length rfl h.2.2.2)⟩⟩
  | band side ticker length deviations =>
    refine check_of_exact [(⟨"length", .int⟩, _, .int length.toInt64),
      (⟨"std_dev", .float⟩, _, .float deviations)] (by cases side <;> rfl) h.1 rfl rfl
      (by cases side <;> rfl) ?_ (by cases side <;> rfl)
    refine List.forall_mem_cons.2 ⟨exact_length rfl h.2.1, List.forall_mem_singleton.2 ?_⟩
    exact exact_float rfl h.2.2.1 (by cases side <;> exact within_aboveZero h.2.2.2)
  | retracement ticker level length =>
    refine check_of_exact [(⟨"level", .retracement⟩, _, .retracement level),
      (⟨"length", .int⟩, _, .int length.toInt64)] rfl h.1 rfl rfl rfl ?_ rfl
    refine List.forall_mem_cons.2 ⟨exact_of_value ?_ rfl,
      List.forall_mem_singleton.2 (exact_length rfl h.2)⟩
    cases level <;> rfl

end Series

/-! ### Conditions -/

namespace Condition

/-- A condition that is no junction is read back if its parameters are. -/
theorem check_of_exact {cx : Context} {k : Constructor} {c : Condition} (args : Arguments)
    (hcategory : k.category = .condition) (hvariadic : k.variadic = false)
    (hslots : args.map (·.1) = k.slots) (hargs : ∀ a ∈ args, Exact cx k a.1 a.2.1 a.2.2)
    (hbuild : condition? k args.values = some c) :
    check cx (.call k.name [] args.keywords) = pure c := by
  rw [check, of_call]
  change conditionOfCall cx k.name [] _ = _
  rw [conditionOfCall, resolve_name hcategory, pure_bind, hvariadic, if_neg Bool.false_ne_true,
    callValues_exact hslots hargs, pure_bind, hbuild]
  rfl

theorem usableConditions_exact {cx : Context} {k : Constructor} {cs : List Condition} (n : ℕ)
    (h : ∀ c ∈ cs, check cx c.toExpr = pure c) :
    usableConditions k n (cs.map fun c => of cx c.toExpr) = pure cs := by
  induction cs generalizing n with
  | nil => rfl
  | cons c cs ih =>
    have hc : (of cx c.toExpr).condition = pure c := h c List.mem_cons_self
    rw [List.map_cons, usableConditions, hc, ih (n + 1) fun d hd => h d (List.mem_cons_of_mem _ hd)]
    rfl

/-- A junction is read back if its conditions are. -/
theorem check_junction {cx : Context} {k : Constructor} {cs : List Condition}
    (hcategory : k.category = .condition) (hvariadic : k.variadic = true) (hne : cs ≠ [])
    (h : ∀ c ∈ cs, check cx c.toExpr = pure c) :
    check cx (.call k.name (toExprs cs) []) = pure (if k = .and then .all cs else .any cs) := by
  obtain ⟨c, rest, rfl⟩ := List.exists_cons_of_ne_nil hne
  rw [check, of_call, toExprs_eq, List.map_map]
  change conditionOfCall cx k.name ((c :: rest).map fun c => of cx c.toExpr) [] = _
  rw [conditionOfCall, resolve_name hcategory, pure_bind, if_pos hvariadic, junction,
    usableConditions_exact 0 h]
  rfl

/-- **A condition in range is read back**, and nothing is noted. -/
theorem check_toExpr (cx : Context) {c : Condition} (h : c.InRange) :
    check cx c.toExpr = pure c := by
  induction c using induct with
  | comparison relation first second =>
    refine check_of_exact (k := relation.constructor)
      [(⟨"first_series", .series⟩, _, .series first),
        (⟨"second_series", .series⟩, _, .series second)] (by cases relation <;> rfl)
      (by cases relation <;> rfl) (by cases relation <;> rfl) ?_ (by cases relation <;> rfl)
    exact List.forall_mem_cons.2 ⟨exact_series rfl (first.check_toExpr cx h.1),
      List.forall_mem_singleton.2 (exact_series rfl (second.check_toExpr cx h.2))⟩
  | all cs ih =>
    exact check_junction (k := .and) rfl rfl h.1 fun c hc => ih c hc (allInRange_iff.1 h.2 c hc)
  | any cs ih =>
    exact check_junction (k := .or) rfl rfl h.1 fun c hc => ih c hc (allInRange_iff.1 h.2 c hc)
  | after base days ih =>
    refine check_of_exact (k := .afterDays) [(⟨"base_condition", .condition⟩, _, .condition base),
      (⟨"days", .int⟩, _, .int days.toInt64)] rfl rfl rfl ?_ rfl
    exact List.forall_mem_cons.2 ⟨exact_condition rfl (ih h.1),
      List.forall_mem_singleton.2 (exact_length rfl h.2)⟩
  | changeOver s percent days =>
    refine check_of_exact (k := .changePerDays) [(⟨"series", .series⟩, _, .series s),
      (⟨"percent", .float⟩, _, .float percent),
      (⟨"number_of_days", .int⟩, _, .int days.toInt64)] rfl rfl rfl ?_ rfl
    exact List.forall_mem_cons.2 ⟨exact_series rfl (s.check_toExpr cx h.1),
      List.forall_mem_cons.2 ⟨exact_float rfl h.2.1 (fun _ hl => nomatch hl),
        List.forall_mem_singleton.2 (exact_length rfl h.2.2)⟩⟩
  | change s percent =>
    refine check_of_exact (k := .changePerBar) [(⟨"series", .series⟩, _, .series s),
      (⟨"percent", .float⟩, _, .float percent)] rfl rfl rfl ?_ rfl
    exact List.forall_mem_cons.2 ⟨exact_series rfl (s.check_toExpr cx h.1),
      List.forall_mem_singleton.2 (exact_float rfl h.2 (fun _ hl => nomatch hl))⟩
  | trend direction s days =>
    refine check_of_exact (k := direction.constructor) [(⟨"series", .series⟩, _, .series s),
      (⟨"number_of_days", .int⟩, _, .int days.toInt64)] (by cases direction <;> rfl)
      (by cases direction <;> rfl) (by cases direction <;> rfl) ?_ (by cases direction <;> rfl)
    exact List.forall_mem_cons.2 ⟨exact_series rfl (s.check_toExpr cx h.1),
      List.forall_mem_singleton.2 (exact_length rfl h.2)⟩

end Condition

/-! ### Settings -/

/-- An amount that is not below zero is not excluded where amounts are not to be so. -/
theorem within_notNegative {x : Float} (h : 0 ≤ x) :
    ∀ limit ∈ [Limit.notNegative], limit.excludes x = false :=
  List.forall_mem_singleton.2 (decide_eq_false (FloatOrder.not_lt_of_le h))

/-- A part of a whole is not excluded where parts of a whole are asked for. -/
theorem within_percentage {x : Float} (h : IsPercentage x) :
    ∀ limit ∈ [Limit.aboveZero, Limit.atMostHundred], limit.excludes x = false :=
  List.forall_mem_cons.2 ⟨decide_eq_false (FloatOrder.not_le_of_lt h.2.1),
    List.forall_mem_singleton.2 (decide_eq_false (FloatOrder.not_lt_of_le h.2.2))⟩

/-- **An order size in range is read back.** -/
theorem OrderSize.check_toExpr (cx : Context) {size : OrderSize} (h : size.InRange) :
    (of cx size.toExpr).orderSize = pure size := by
  cases size with
  | contracts count =>
    rw [toExpr, of_call]
    exact settingOfCall_exact (c := .contracts) [(⟨"value", .int⟩, _, .int count)]
      rfl rfl (List.forall_mem_singleton.2 (exact_int rfl (.inr h))) rfl
  | usd amount =>
    rw [toExpr, of_call]
    exact settingOfCall_exact (c := .usd) [(⟨"value", .float⟩, _, .float amount)]
      rfl rfl (List.forall_mem_singleton.2 (exact_float rfl h.1 (within_aboveZero h.2))) rfl
  | percentOfPortfolio percent =>
    rw [toExpr, of_call]
    exact settingOfCall_exact (c := .percentOfPortfolio)
      [(⟨"value", .float⟩, _, .float percent)]
      rfl rfl (List.forall_mem_singleton.2 (exact_float rfl h.1 (within_percentage h))) rfl

/-- **A commission in range is read back.** -/
theorem Commission.check_toExpr (cx : Context) {commission : Commission} (h : commission.InRange) :
    (of cx commission.toExpr).commission = pure (some commission) := by
  cases commission with
  | fixed amount =>
    rw [toExpr, of_call]
    exact settingOfCall_exact (c := .fixedCommission) [(⟨"value", .float⟩, _, .float amount)]
      rfl rfl (List.forall_mem_singleton.2 (exact_float rfl h.1 (within_notNegative h.2))) rfl
  | percent rate =>
    rw [toExpr, of_call]
    exact settingOfCall_exact (c := .percentCommission) [(⟨"value", .float⟩, _, .float rate)]
      rfl rfl (List.forall_mem_singleton.2 (exact_float rfl h.1 (within_notNegative h.2))) rfl

/-- **A stop loss in range is read back.** -/
theorem StopLoss.check_toExpr (cx : Context) {stop : StopLoss Float} (h : stop.InRange) :
    (of cx stop.toExpr).stopLoss = pure (some stop) := by
  rw [toExpr, of_call]
  refine settingOfCall_exact (c := .stopLoss)
    [(⟨"stop_loss_type", .choice .stopKind⟩, _, .stopKind stop.kind),
      (⟨"percent", .float⟩, _, .float stop.percent)] rfl rfl ?_ rfl
  refine List.forall_mem_cons.2 ⟨exact_choice rfl (fun _ => rfl) ?_ rfl,
    List.forall_mem_singleton.2 (exact_float rfl h.1 (within_percentage h))⟩
  cases stop.kind <;> decide

/-- **A take profit in range is read back.** -/
theorem TakeProfit.check_toExpr (cx : Context) {profit : TakeProfit Float} (h : profit.InRange) :
    (of cx profit.toExpr).takeProfit = pure (some profit) := by
  rw [toExpr, of_call]
  exact settingOfCall_exact (c := .takeProfit)
    [(⟨"percent", .float⟩, _, .float profit.percent)]
    rfl rfl (List.forall_mem_singleton.2 (exact_float rfl h.1 (within_aboveZero h.2))) rfl

/-! ### Changelogs -/

/-- **A check with a changelog at hand**: what came of it, and the changelog, where all that was
noted is recorded for a side of the strategy. -/
def Check.recordedIn {α : Type} (log : Changelog) (side : String) (v : Check α) :
    Except Fault α × Changelog :=
  (v.result, log.recordAll (v.notes.map fun n => (n.key side, n.message)))

/-- **Checking is the inverse of writing.** Whatever the context, the side and the changelog are, a
condition in range that is written as an expression and checked is the same again, and the changelog
is left as it was. The same is true of series and of each kind of setting. -/
theorem Check.recordedIn_toExpr (cx : Context) (side : String) (log : Changelog) :
    (∀ c : Condition, c.InRange →
      (Condition.check cx c.toExpr).recordedIn log side = (.ok c, log)) ∧
    (∀ s : Series, s.InRange → (Series.check cx s.toExpr).recordedIn log side = (.ok s, log)) ∧
    (∀ size : OrderSize, size.InRange →
      (of cx size.toExpr).orderSize.recordedIn log side = (.ok size, log)) ∧
    (∀ commission : Commission, commission.InRange →
      (of cx commission.toExpr).commission.recordedIn log side = (.ok (some commission), log)) ∧
    (∀ stop : StopLoss Float, stop.InRange →
      (of cx stop.toExpr).stopLoss.recordedIn log side = (.ok (some stop), log)) ∧
    ∀ profit : TakeProfit Float, profit.InRange →
      (of cx profit.toExpr).takeProfit.recordedIn log side = (.ok (some profit), log) := by
  have hpure : ∀ {α : Type} {v : Check α} {a : α}, v = pure a →
      v.recordedIn log side = (.ok a, log) := by
    rintro α v a rfl
    rfl
  exact ⟨fun _ h => hpure (Condition.check_toExpr cx h),
    fun _ h => hpure (Series.check_toExpr cx h), fun _ h => hpure (OrderSize.check_toExpr cx h),
    fun _ h => hpure (Commission.check_toExpr cx h), fun _ h => hpure (StopLoss.check_toExpr cx h),
    fun _ h => hpure (TakeProfit.check_toExpr cx h)⟩

/-- A junction inside of a junction, and a condition that is moved, over series with no parameter
besides their ticker, with one and with two. -/
def nestedCondition : Condition :=
  .all [.any [.comparison .crossedAbove (.windowed .sma "AAPL" 10) (.constant (-5)),
      .after (.trend .up (.obv "MSFT") 3) 2],
    .changeOver (.band .upper "AAPL" 20 2.5) (-1.5) 7]

theorem inRange_nestedCondition : nestedCondition.InRange := by
  have hlength : ∀ n ∈ [10, 3, 2, 20, 7], LengthInRange n := by
    simp [LengthInRange]
  have hband : (Series.band .upper "AAPL" 20 2.5).InRange :=
    ⟨by decide, hlength 20 (by decide), by decide +kernel, by decide +kernel⟩
  have hcross : (Condition.comparison .crossedAbove (.windowed .sma "AAPL" 10)
      (.constant (-5))).InRange :=
    ⟨⟨by decide, hlength 10 (by decide)⟩, trivial⟩
  have hafter : (Condition.after (.trend .up (.obv "MSFT") 3) 2).InRange :=
    ⟨⟨show Ticker.isValid "MSFT" = true by decide, hlength 3 (by decide)⟩, hlength 2 (by decide)⟩
  exact ⟨List.cons_ne_nil _ _, ⟨List.cons_ne_nil _ _, hcross, hafter, trivial⟩,
    ⟨hband, by decide +kernel, hlength 7 (by decide)⟩, trivial⟩

/-- Such a condition is read back, and so are settings at the ends of their ranges. -/
theorem recordedIn_nestedCondition :
    let cx : Context := ⟨"AAPL", ⟨2024, 2, 29, by decide⟩⟩
    let log := Changelog.empty.record "ticker" "missing ticker"
    (Condition.check cx nestedCondition.toExpr).recordedIn log "buy_condition" =
        (.ok nestedCondition, log) ∧
      (of cx (Commission.fixed 0).toExpr).commission.recordedIn log "trade_commissions" =
        (.ok (some (.fixed 0)), log) ∧
      (of cx (StopLoss.mk .trailing 100).toExpr).stopLoss.recordedIn log "stop_loss" =
        (.ok (some ⟨.trailing, 100⟩), log) := by
  intro cx log
  have hfree : (Commission.fixed 0).InRange := ⟨by decide +kernel, by decide +kernel⟩
  have hwhole : (StopLoss.mk .trailing (100 : Float)).InRange :=
    ⟨by decide +kernel, by decide +kernel, by decide +kernel⟩
  exact ⟨(Check.recordedIn_toExpr cx _ log).1 _ inRange_nestedCondition,
    (Check.recordedIn_toExpr cx _ log).2.2.2.1 _ hfree,
    (Check.recordedIn_toExpr cx _ log).2.2.2.2.1 _ hwhole⟩

end TradeSignals
