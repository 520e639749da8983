import TradeSignals.Proofs.Validation.Unnoted

/-!
# Readings without a note

What an expression comes to without a note, as a condition, a series or a setting, is written as
an expression that the first one restates (`TradeSignals.Reading.faithful_of`, by induction on
the expression).

The arguments of a call are bound without a problem and then read one by one, each without a
note. A constructor builds from the values of all its parameters, so each parameter has an
argument and nothing is left over: the arguments are restated by those that are written, after
they have been put in order (`TradeSignals.Reading.exists_restatedArguments`). A junction keeps
its conditions in their order, and a series has its ticker besides.
-/

namespace TradeSignals

open Verdict

namespace Reading

variable {cx : Context} {c : Constructor} {v : Value}

/-! ### Values of calls -/

/-- Arguments with their parameters, and the values that they are read as without a note. -/
def ReadAs (cx : Context) (c : Constructor) : List (Slot × Reading) → Values → Prop :=
  List.Forall₂ fun p v => v.1 = p.1.name ∧ p.2.parameter cx (some c) p.1 = pure v.2

variable {bound : List (Slot × Reading)} {vs : Values} {args : List Reading}
  {ks : List (String × Reading)}

theorem readAs_of_usableValues (h : usableValues cx c bound = pure vs) : ReadAs cx c bound vs := by
  induction bound generalizing vs with
  | nil =>
    cases (eq_pure_iff.1 h).2
    exact .nil
  | cons p bound ih =>
    obtain ⟨x, hx, h⟩ := bind_eq_pure.1 h
    cases x with
    | error fault => exact absurd h note_bind_ne_pure
    | ok value =>
      obtain ⟨vs', hvs', h⟩ := bind_eq_pure.1 h
      cases (eq_pure_iff.1 h).2
      exact .cons ⟨rfl, attempt_eq_pure.1 hx⟩ (ih hvs')

theorem readAs_of_allValues (h : allValues cx c bound = pure vs) : ReadAs cx c bound vs := by
  induction bound generalizing vs with
  | nil =>
    cases (eq_pure_iff.1 h).2
    exact .nil
  | cons p bound ih =>
    obtain ⟨value, hvalue, h⟩ := bind_eq_pure.1 h
    obtain ⟨vs', hvs', h⟩ := bind_eq_pure.1 h
    cases (eq_pure_iff.1 h).2
    exact .cons ⟨rfl, translate_eq_pure.1 hvalue⟩ (ih hvs')

theorem readAs_of_callValues (h : callValues cx c args ks = pure vs) :
    (Binding.ofCall c args ks).problems = [] ∧ ReadAs cx c (Binding.ofCall c args ks).bound vs := by
  obtain ⟨_, hnotes, h⟩ := bind_eq_pure.1 h
  exact ⟨List.map_eq_nil_iff.1 (noteAll_eq_pure.1 hnotes), readAs_of_usableValues h⟩

theorem ReadAs.lookup (h : ReadAs cx c bound vs) (hnodup : (bound.map (·.1.name)).Nodup)
    {p : Slot × Reading} (hp : p ∈ bound) :
    ∃ v, vs.lookup p.1.name = some v ∧ p.2.parameter cx (some c) p.1 = pure v := by
  induction h with
  | nil => cases hp
  | @cons q v bound vs hqv hrest ih =>
    rw [List.map_cons, List.nodup_cons] at hnodup
    obtain ⟨key, value⟩ := v
    obtain ⟨rfl, hq⟩ := hqv
    rcases List.mem_cons.1 hp with rfl | hp
    · exact ⟨value, List.lookup_cons_self, hq⟩
    · have hne : p.1.name ≠ q.1.name := fun heq => hnodup.1 (heq ▸ List.mem_map_of_mem hp)
      rw [List.lookup_cons, beq_eq_false_iff_ne.2 hne]
      exact ih hnodup.2 hp

theorem ReadAs.exists_of_lookup (h : ReadAs cx c bound vs) {key : String} {v : Value}
    (hv : vs.lookup key = some v) : ∃ p ∈ bound, p.1.name = key := by
  induction h with
  | nil => cases hv
  | @cons q w bound vs hqw hrest ih =>
    obtain ⟨key', value⟩ := w
    obtain ⟨rfl, -⟩ := hqw
    by_cases hkey : key = q.1.name
    · exact ⟨q, List.mem_cons_self, hkey.symm⟩
    · rw [List.lookup_cons, beq_eq_false_iff_ne.2 hkey] at hv
      obtain ⟨p, hp, heq⟩ := ih hv
      exact ⟨p, List.mem_cons_of_mem _ hp, heq⟩

end Reading

/-! ### Values that are written -/

namespace Values

variable {vs : Values} {key : String}

/-- What a parameter came to is written as an expression. -/
def Writes (vs : Values) (key : String) (e : Expr) : Prop :=
  ∃ v, vs.lookup key = some v ∧ v.expr? = some e

/-- What several parameters came to is written as keyword arguments, in order. -/
def Spells (vs : Values) : List Slot → List (String × Expr) → Prop :=
  List.Forall₂ fun slot ke => ke.1 = slot.name ∧ vs.Writes slot.name ke.2

theorem Spells.exists_lookup {slots : List Slot} {written : List (String × Expr)}
    (h : vs.Spells slots written) : ∀ slot ∈ slots, ∃ v, vs.lookup slot.name = some v := by
  induction h with
  | nil => exact fun _ hslot => nomatch hslot
  | cons hke hrest ih =>
    obtain ⟨-, v, hv, -⟩ := hke
    exact List.forall_mem_cons.2 ⟨⟨v, hv⟩, ih⟩

theorem writes_int {v : Int64} (h : vs.int? key = some v) : vs.Writes key (.int v) := by
  unfold int? at h
  split at h <;> cases h
  exact ⟨_, ‹_›, rfl⟩

theorem writes_length {n : UInt64} (h : vs.length? key = some n) :
    vs.Writes key (Series.lengthExpr n) := by
  obtain ⟨v, hv, rfl⟩ := Option.map_eq_some_iff.1 h
  exact writes_int hv

theorem writes_float {x : Float} (h : vs.float? key = some x) : vs.Writes key (.float x) := by
  unfold float? at h
  split at h <;> cases h
  exact ⟨_, ‹_›, rfl⟩

theorem writes_priceField {p : PriceField} (h : vs.priceField? key = some p) :
    vs.Writes key (Strategy.memberExpr .priceField p) := by
  unfold priceField? at h
  split at h <;> cases h
  exact ⟨_, ‹_›, rfl⟩

theorem writes_stopKind {k : StopKind} (h : vs.stopKind? key = some k) :
    vs.Writes key (Strategy.memberExpr .stopKind k) := by
  unfold stopKind? at h
  split at h <;> cases h
  exact ⟨_, ‹_›, rfl⟩

theorem writes_retracement {level : Retracement} (h : vs.retracement? key = some level) :
    vs.Writes key (.member Retracement.kindName (Choice.label level)) := by
  unfold retracement? at h
  split at h <;> cases h
  exact ⟨_, ‹_›, rfl⟩

theorem writes_series {s : Series} (h : vs.series? key = some s) : vs.Writes key s.toExpr := by
  unfold series? at h
  split at h <;> cases h
  exact ⟨_, ‹_›, rfl⟩

theorem writes_condition {k : Condition} (h : vs.condition? key = some k) :
    vs.Writes key k.toExpr := by
  unfold condition? at h
  split at h <;> cases h
  exact ⟨_, ‹_›, rfl⟩

end Values

namespace Reading

variable {cx : Context} {c : Constructor} {bound given : List (Slot × Reading)} {vs : Values}
  {args : List Reading} {ks : List (String × Reading)} {written : List (String × Expr)}

/-! ### Calls -/

/-- Arguments in the order of their parameters restate what these came to. -/
theorem ReadAs.restatedArguments (h : ReadAs cx c bound vs)
    (hnodup : (bound.map (·.1.name)).Nodup) (hbound : ∀ p ∈ bound, p.2.Faithful cx.ticker)
    (hgiven : ∀ p ∈ given, p ∈ bound) (hspells : vs.Spells (given.map (·.1)) written) :
    Expr.RestatedArguments cx.ticker (given.map (·.1))
      (given.map fun p => (p.1.name, p.2.expr)) written := by
  induction given generalizing written with
  | nil =>
    cases hspells
    exact .nil
  | cons p given ih =>
    obtain ⟨hp, hrest⟩ := List.forall_mem_cons.1 hgiven
    cases hspells with
    | @cons _ ke _ written' hke hspells =>
      obtain ⟨key, e⟩ := ke
      obtain ⟨rfl, v, hv, he⟩ := hke
      obtain ⟨v', hv', hparameter⟩ := h.lookup hnodup hp
      cases hv.symm.trans hv'
      have hstands := (stands_of_parameter (hbound p hp) hparameter).2
      rw [he] at hstands
      exact .cons hstands (ih hrest hspells)

/-- **The arguments of a call** that are read without a problem and without a note restate what
the parameters came to, once they are put in order. -/
theorem exists_restatedArguments (hargs : ∀ r ∈ args, r.Faithful cx.ticker)
    (hks : ∀ k ∈ ks, k.2.Faithful cx.ticker) (hproblems : (Binding.ofCall c args ks).problems = [])
    (hread : ReadAs cx c (Binding.ofCall c args ks).bound vs)
    (hspells : vs.Spells c.slots written) : args.length ≤ c.slots.length ∧
      ∃ given, ((c.slots.map (·.name)).zip (args.map (·.expr)) ++
        ks.map fun k => (k.1, k.2.expr)).Perm given ∧
        Expr.RestatedArguments cx.ticker c.slots given written := by
  obtain ⟨hlength, hnames, hnodup, hslots⟩ := Binding.bound_of_problems_eq_nil hproblems
  refine ⟨hlength, ?_⟩
  -- Each parameter came to something, so it has an argument.
  have hall : ∀ slot ∈ c.slots, ∃ p ∈ (Binding.ofCall c args ks).bound, p.1 = slot := by
    intro slot hslot
    obtain ⟨v, hv⟩ := hspells.exists_lookup slot hslot
    obtain ⟨p, hp, hname⟩ := hread.exists_of_lookup hv
    exact ⟨p, hp, List.inj_on_of_nodup_map (Binding.nodup_slots c) (hslots p hp) hslot hname⟩
  obtain ⟨given, hperm, hgiven⟩ := Binding.exists_perm_slots hnodup hslots hall
  have hbound : ∀ p ∈ (Binding.ofCall c args ks).bound, p.2.Faithful cx.ticker := by
    intro p hp
    rcases Binding.mem_bound_ofCall p hp with h | ⟨k, hk, h⟩
    · exact hargs _ h
    · exact h ▸ hks k hk
  refine ⟨given.map fun p => (p.1.name, p.2.expr), ?_, ?_⟩
  · have hexprs := congrArg (List.map (Prod.map id Reading.expr)) hnames
    rw [Binding.names, List.map_map, List.map_append, ← List.zip_map_right] at hexprs
    exact hexprs ▸ hperm.map fun p => (p.1.name, p.2.expr)
  · have hrestated := hread.restatedArguments hnodup hbound
      (fun p hp => hperm.symm.subset hp) (hgiven ▸ hspells)
    rwa [hgiven] at hrestated

/-- The call of the constructor restates what is built from its values. -/
theorem restated_of_readAs {tag : Tag} (htag : c.category.tag? = some tag)
    (hvariadic : c.variadic = false) (hseries : c.category ≠ .series)
    (hargs : ∀ r ∈ args, r.Faithful cx.ticker) (hks : ∀ k ∈ ks, k.2.Faithful cx.ticker)
    (hproblems : (Binding.ofCall c args ks).problems = [])
    (hread : ReadAs cx c (Binding.ofCall c args ks).bound vs)
    (hspells : vs.Spells c.slots written) :
    Expr.Restated cx.ticker tag
      (.call c.name (args.map (·.expr)) (ks.map fun k => (k.1, k.2.expr)))
      (.call c.name [] written) := by
  obtain ⟨hlength, given, hgiven, harguments⟩ :=
    exists_restatedArguments hargs hks hproblems hread hspells
  have hparameters := Constructor.parameters_of_not_takesTicker
    (Constructor.takesTicker_of_category hseries)
  rw [← Constructor.written_of_category hseries]
  rw [← hparameters] at hlength hgiven harguments
  exact .call htag hvariadic ((List.length_map _).trans_le hlength) hgiven harguments

theorem resolve_eq_pure {wanted : Category} {name : String} (h : resolve wanted name = pure c) :
    c.name = name ∧ c.category = wanted := by
  unfold resolve at h
  split at h
  · next hname =>
    split at h
    · next hcategory =>
      cases (eq_pure_iff.1 h).2
      exact ⟨Constructor.name_of_ofName? hname, hcategory⟩
    · exact absurd h fail_ne_pure
  · exact absurd h fail_ne_pure

theorem built_eq_pure {α : Type} {result : Option α} {a : α} (h : built c vs result = pure a) :
    result = some a :=
  built_eq_ok (eq_pure_iff.1 h).2

/-! ### Conditions -/

theorem comparison?_spells {relation : Relation} {k : Condition}
    (h : comparison? relation vs = some k) : ∃ written,
      k.toExpr = .call relation.constructor.name [] written ∧
        vs.Spells relation.constructor.slots written := by
  obtain ⟨first, hfirst, h⟩ := Option.bind_eq_some_iff.1 h
  obtain ⟨second, hsecond, h⟩ := Option.bind_eq_some_iff.1 h
  cases h
  refine ⟨_, rfl, ?_⟩
  cases relation <;> exact .cons ⟨rfl, Values.writes_series hfirst⟩
    (.cons ⟨rfl, Values.writes_series hsecond⟩ .nil)

theorem trend?_spells {direction : Direction} {k : Condition}
    (h : trend? direction vs = some k) : ∃ written,
      k.toExpr = .call direction.constructor.name [] written ∧
        vs.Spells direction.constructor.slots written := by
  obtain ⟨s, hs, h⟩ := Option.bind_eq_some_iff.1 h
  obtain ⟨days, hdays, h⟩ := Option.bind_eq_some_iff.1 h
  cases h
  refine ⟨_, rfl, ?_⟩
  cases direction <;> exact .cons ⟨rfl, Values.writes_series hs⟩
    (.cons ⟨rfl, Values.writes_length hdays⟩ .nil)

/-- The condition that a constructor builds writes the values of all its parameters. -/
theorem condition?_spells {k : Condition} (h : condition? c vs = some k) :
    ∃ written, k.toExpr = .call c.name [] written ∧ vs.Spells c.slots written := by
  cases c with
  | greaterThan | lessThan | crossOver | crossUnder => exact comparison?_spells h
  | uptrend | downtrend => exact trend?_spells h
  | afterDays =>
    obtain ⟨base, hbase, h⟩ := Option.bind_eq_some_iff.1 h
    obtain ⟨days, hdays, h⟩ := Option.bind_eq_some_iff.1 h
    cases h
    exact ⟨_, rfl, .cons ⟨rfl, Values.writes_condition hbase⟩
      (.cons ⟨rfl, Values.writes_length hdays⟩ .nil)⟩
  | changePerDays =>
    obtain ⟨s, hs, h⟩ := Option.bind_eq_some_iff.1 h
    obtain ⟨percent, hpercent, h⟩ := Option.bind_eq_some_iff.1 h
    obtain ⟨days, hdays, h⟩ := Option.bind_eq_some_iff.1 h
    cases h
    exact ⟨_, rfl, .cons ⟨rfl, Values.writes_series hs⟩
      (.cons ⟨rfl, Values.writes_float hpercent⟩
        (.cons ⟨rfl, Values.writes_length hdays⟩ .nil))⟩
  | changePerBar =>
    obtain ⟨s, hs, h⟩ := Option.bind_eq_some_iff.1 h
    obtain ⟨percent, hpercent, h⟩ := Option.bind_eq_some_iff.1 h
    cases h
    exact ⟨_, rfl, .cons ⟨rfl, Values.writes_series hs⟩
      (.cons ⟨rfl, Values.writes_float hpercent⟩ .nil)⟩
  | _ => cases h

theorem restatedEach_of_usableConditions {i : ℕ} {cs : List Condition}
    (hargs : ∀ r ∈ args, r.Faithful cx.ticker) (h : usableConditions c i args = pure cs) :
    Expr.RestatedEach cx.ticker (args.map (·.expr)) (Condition.toExprs cs) := by
  induction args generalizing i cs with
  | nil =>
    cases (eq_pure_iff.1 h).2
    exact .nil
  | cons r args ih =>
    obtain ⟨hr, hrest⟩ := List.forall_mem_cons.1 hargs
    obtain ⟨x, hx, h⟩ := bind_eq_pure.1 h
    cases x with
    | error fault => exact absurd h note_bind_ne_pure
    | ok k =>
      obtain ⟨cs', hcs', h⟩ := bind_eq_pure.1 h
      cases (eq_pure_iff.1 h).2
      exact .cons (hr.condition k (attempt_eq_pure.1 hx)) (ih hrest hcs')

/-- A junction without a note has no keywords, and each of its conditions is kept. -/
theorem restated_of_junction {k : Condition} (hc : c.variadic = true)
    (hargs : ∀ r ∈ args, r.Faithful cx.ticker) (h : junction c args ks = pure k) :
    Expr.Restated cx.ticker .condition
      (.call c.name (args.map (·.expr)) (ks.map fun k => (k.1, k.2.expr))) k.toExpr := by
  obtain ⟨_, hnotes, hrest⟩ := bind_eq_pure.1 h
  obtain ⟨cs, hcs, hrest⟩ := bind_eq_pure.1 hrest
  obtain rfl := List.map_eq_nil_iff.1 (noteAll_eq_pure.1 hnotes)
  have heach := restatedEach_of_usableConditions hargs hcs
  have hexpr : k.toExpr = .call c.name (Condition.toExprs cs) [] := by
    split at hrest
    · exact absurd hrest fail_ne_pure
    · cases (eq_pure_iff.1 hrest).2
      cases c with
      | and | or => rfl
      | _ => cases hc
  rw [hexpr]
  exact .junction hc heach

/-- **A call that is read as a condition** without a note restates it. -/
theorem restated_of_conditionOfCall {callee : String} {k : Condition}
    (hargs : ∀ r ∈ args, r.Faithful cx.ticker) (hks : ∀ k ∈ ks, k.2.Faithful cx.ticker)
    (h : conditionOfCall cx callee args ks = pure k) :
    Expr.Restated cx.ticker .condition
      (.call callee (args.map (·.expr)) (ks.map fun k => (k.1, k.2.expr))) k.toExpr := by
  obtain ⟨c, hresolve, hrest⟩ := bind_eq_pure.1 h
  obtain ⟨rfl, hcategory⟩ := resolve_eq_pure hresolve
  split at hrest
  · next hvariadic => exact restated_of_junction hvariadic hargs hrest
  · next hvariadic =>
    obtain ⟨vs, hvs, hbuilt⟩ := bind_eq_pure.1 hrest
    obtain ⟨hproblems, hread⟩ := readAs_of_callValues hvs
    obtain ⟨written, hexpr, hspells⟩ := condition?_spells (built_eq_pure hbuilt)
    rw [hexpr]
    exact restated_of_readAs (by rw [hcategory]; rfl) (Bool.eq_false_iff.2 hvariadic)
      (by rw [hcategory]; decide) hargs hks hproblems hread hspells

/-! ### Settings -/

/-- **A call that is read as a setting** without a note restates it. -/
theorem stands_of_settingOfCall {α : Type} {category : Category} {tag : Tag}
    {build? : Constructor → Values → Option α} {expr? : α → Option Expr}
    (htag : category.tag? = some tag) (hcategory : category ≠ .series ∧ category ≠ .condition)
    (hbuild : ∀ c vs a, c.category = category → build? c vs = some a → ∃ written,
      expr? a = some (.call c.name [] written) ∧ vs.Spells c.slots written)
    {callee : String} {a : α} (hargs : ∀ r ∈ args, r.Faithful cx.ticker)
    (hks : ∀ k ∈ ks, k.2.Faithful cx.ticker)
    (h : settingOfCall cx category build? callee args ks = pure a) :
    Expr.Stands cx.ticker tag
      (.call callee (args.map (·.expr)) (ks.map fun k => (k.1, k.2.expr))) (expr? a) := by
  unfold settingOfCall at h
  split at h
  · exact absurd h fail_ne_pure
  · next c hname =>
    obtain ⟨hname, hc⟩ := Option.filter_eq_some_iff.1 hname
    obtain rfl := Constructor.name_of_ofName? hname
    have hc := of_decide_eq_true hc
    dsimp only at h
    split at h
    · exact absurd h fail_ne_pure
    · next hproblems =>
      split at h
      · exact absurd h fail_ne_pure
      · obtain ⟨vs, hvs, h⟩ := bind_eq_pure.1 h
        have hbuilt : build? c vs = some a := by
          split at h
          · next hbuilt =>
            cases (eq_pure_iff.1 h).2
            exact hbuilt
          · exact absurd h fail_ne_pure
        obtain ⟨written, hexpr, hspells⟩ := hbuild c vs a hc hbuilt
        rw [hexpr]
        exact restated_of_readAs (hc ▸ htag) (Constructor.variadic_of_category (hc ▸ hcategory.2))
          (hc ▸ hcategory.1) hargs hks hproblems (readAs_of_allValues hvs) hspells

theorem orderSize?_spells {x : OrderSize} (h : orderSize? c vs = some x) :
    ∃ written, some x.toExpr = some (.call c.name [] written) ∧ vs.Spells c.slots written := by
  cases c with
  | contracts =>
    obtain ⟨v, hv, rfl⟩ := Option.map_eq_some_iff.1 h
    exact ⟨_, rfl, .cons ⟨rfl, Values.writes_int hv⟩ .nil⟩
  | usd | percentOfPortfolio =>
    obtain ⟨v, hv, rfl⟩ := Option.map_eq_some_iff.1 h
    exact ⟨_, rfl, .cons ⟨rfl, Values.writes_float hv⟩ .nil⟩
  | _ => cases h

theorem commission?_spells {x : Option Commission} (h : commission? c vs = some x) :
    ∃ written, x.map Commission.toExpr = some (.call c.name [] written) ∧
      vs.Spells c.slots written := by
  cases c with
  | fixedCommission | percentCommission =>
    obtain ⟨v, hv, rfl⟩ := Option.map_eq_some_iff.1 h
    exact ⟨_, rfl, .cons ⟨rfl, Values.writes_float hv⟩ .nil⟩
  | _ => cases h

theorem stopLoss?_spells {x : Option (StopLoss Float)} (hc : c.category = .stopLoss)
    (h : stopLoss? c vs = some x) : ∃ written,
      x.map StopLoss.toExpr = some (.call c.name [] written) ∧ vs.Spells c.slots written := by
  obtain ⟨kind, hkind, h⟩ := Option.bind_eq_some_iff.1 h
  obtain ⟨percent, hpercent, h⟩ := Option.bind_eq_some_iff.1 h
  cases h
  cases c with
  | stopLoss =>
    exact ⟨_, rfl, .cons ⟨rfl, Values.writes_stopKind hkind⟩
      (.cons ⟨rfl, Values.writes_float hpercent⟩ .nil)⟩
  | _ => cases hc

theorem takeProfit?_spells {x : Option (TakeProfit Float)} (hc : c.category = .takeProfit)
    (h : takeProfit? c vs = some x) : ∃ written,
      x.map TakeProfit.toExpr = some (.call c.name [] written) ∧ vs.Spells c.slots written := by
  obtain ⟨percent, hpercent, h⟩ := Option.bind_eq_some_iff.1 h
  cases h
  cases c with
  | takeProfit => exact ⟨_, rfl, .cons ⟨rfl, Values.writes_float hpercent⟩ .nil⟩
  | _ => cases hc

/-! ### Series -/

theorem windowed?_spells {study : Study} {ticker : String} {s : Series}
    (h : windowed? study ticker vs = some s) : ∃ written,
      s.toExpr = .call study.constructor.name [.quoted ticker] written ∧
        vs.Spells study.constructor.slots written := by
  obtain ⟨length, hlength, h⟩ := Option.bind_eq_some_iff.1 h
  cases h
  refine ⟨_, rfl, ?_⟩
  cases study <;> exact .cons ⟨rfl, Values.writes_length hlength⟩ .nil

theorem band?_spells {side : BandSide} {ticker : String} {s : Series}
    (h : band? side ticker vs = some s) : ∃ written,
      s.toExpr = .call side.constructor.name [.quoted ticker] written ∧
        vs.Spells side.constructor.slots written := by
  obtain ⟨length, hlength, h⟩ := Option.bind_eq_some_iff.1 h
  obtain ⟨deviations, hdeviations, h⟩ := Option.bind_eq_some_iff.1 h
  cases h
  refine ⟨_, rfl, ?_⟩
  cases side <;> exact .cons ⟨rfl, Values.writes_length hlength⟩
    (.cons ⟨rfl, Values.writes_float hdeviations⟩ .nil)

/-- The series that a constructor builds writes its ticker and the values of all its
parameters. -/
theorem series?_spells {ticker : String} {s : Series} (h : series? c ticker vs = some s) :
    ∃ written, s.toExpr = .call c.name [.quoted ticker] written ∧ vs.Spells c.slots written := by
  cases c with
  | sma | ema | wma | rsi | roc | stddev | atr => exact windowed?_spells h
  | upperBand | lowerBand => exact band?_spells h
  | price =>
    obtain ⟨field, hfield, h⟩ := Option.bind_eq_some_iff.1 h
    cases h
    exact ⟨_, rfl, .cons ⟨rfl, Values.writes_priceField hfield⟩ .nil⟩
  | obv =>
    cases h
    exact ⟨_, rfl, .nil⟩
  | macd =>
    obtain ⟨fast, hfast, h⟩ := Option.bind_eq_some_iff.1 h
    obtain ⟨slow, hslow, h⟩ := Option.bind_eq_some_iff.1 h
    cases h
    exact ⟨_, rfl, .cons ⟨rfl, Values.writes_length hfast⟩
      (.cons ⟨rfl, Values.writes_length hslow⟩ .nil)⟩
  | macdSignal =>
    obtain ⟨fast, hfast, h⟩ := Option.bind_eq_some_iff.1 h
    obtain ⟨slow, hslow, h⟩ := Option.bind_eq_some_iff.1 h
    obtain ⟨signal, hsignal, h⟩ := Option.bind_eq_some_iff.1 h
    cases h
    exact ⟨_, rfl, .cons ⟨rfl, Values.writes_length hfast⟩
      (.cons ⟨rfl, Values.writes_length hslow⟩
        (.cons ⟨rfl, Values.writes_length hsignal⟩ .nil))⟩
  | retracement =>
    obtain ⟨level, hlevel, h⟩ := Option.bind_eq_some_iff.1 h
    obtain ⟨length, hlength, h⟩ := Option.bind_eq_some_iff.1 h
    cases h
    exact ⟨_, rfl, .cons ⟨rfl, Values.writes_retracement hlevel⟩
      (.cons ⟨rfl, Values.writes_length hlength⟩ .nil)⟩
  | _ => cases h

theorem eq_quoted_of_seriesTicker {r : Reading} {rest : List Reading} {t : String}
    (h : seriesTicker cx c (r :: rest) = pure t) : rest = [] ∧ r.expr = .quoted t := by
  obtain ⟨_, hnotes, h⟩ := bind_eq_pure.1 h
  refine ⟨List.map_eq_nil_iff.1 (noteAll_eq_pure.1 hnotes), ?_⟩
  dsimp only at h
  split at h
  · next hplain =>
    cases (eq_pure_iff.1 h).2
    exact Plain.eq_quoted_of_ticker hplain
  · exact absurd h note_bind_ne_pure

/-- **The ticker of a series** without a note is its first argument by position, or its only
argument by that keyword, or that of the strategy. -/
theorem ticker_cases {t : String}
    (h : seriesTicker cx c (tickerArguments args ks) = pure t) :
    (∃ r rest, args = r :: rest ∧ ks.filter isTickerKey = [] ∧ r.expr = .quoted t) ∨
      (args = [] ∧ ∃ k, ks.filter isTickerKey = [k] ∧ k.2.expr = .quoted t) ∨
      (args = [] ∧ ks.filter isTickerKey = [] ∧ t = cx.ticker) := by
  unfold tickerArguments at h
  cases args with
  | cons r rest =>
    obtain ⟨hrest, hr⟩ := eq_quoted_of_seriesTicker h
    exact .inl ⟨r, rest, rfl, List.map_eq_nil_iff.1 hrest, hr⟩
  | nil =>
    generalize ks.filter isTickerKey = tickers at h
    cases tickers with
    | cons k tickers =>
      obtain ⟨hrest, hk⟩ := eq_quoted_of_seriesTicker h
      obtain rfl := List.map_eq_nil_iff.1 hrest
      exact .inr (.inl ⟨rfl, k, rfl, hk⟩)
    | nil => exact .inr (.inr ⟨rfl, rfl, (Except.ok.inj (eq_pure_iff.1 h).2).symm⟩)

/-- **A call that is read as a series of a ticker** without a note restates it. -/
theorem restated_of_ticker {t : String} (htakes : c.takesTicker = true)
    (hcategory : c.category = .series) (hargs : ∀ r ∈ args, r.Faithful cx.ticker)
    (hks : ∀ k ∈ ks, k.2.Faithful cx.ticker)
    (hticker : seriesTicker cx c (tickerArguments args ks) = pure t)
    (hvs : callValues cx c (args.drop 1) (ks.filter fun k => !isTickerKey k) = pure vs)
    (hspells : vs.Spells c.slots written) :
    Expr.Restated cx.ticker .series
      (.call c.name (args.map (·.expr)) (ks.map fun k => (k.1, k.2.expr)))
      (.call c.name [.quoted t] written) := by
  obtain ⟨hproblems, hread⟩ := readAs_of_callValues hvs
  obtain ⟨hlength, given, hgiven, harguments⟩ := exists_restatedArguments
    (fun r hr => hargs r (List.mem_of_mem_drop hr))
    (fun k hk => hks k (List.mem_of_mem_filter hk)) hproblems hread hspells
  -- The keywords are those of the ticker and the others.
  have hkeywords := ((List.filter_append_perm isTickerKey ks).map
    fun k : String × Reading => (k.1, k.2.expr)).symm
  have hparameters := Constructor.parameters_of_takesTicker htakes
  have hwhole : Expr.RestatedArguments cx.ticker c.parameters
      ((Constructor.tickerSlot.name, .quoted t) :: given)
      ((Constructor.tickerSlot.name, .quoted t) :: written) := by
    rw [hparameters]
    exact .cons (.literal _ _) harguments
  have hvariadic : c.variadic = false :=
    Constructor.variadic_of_category (by rw [hcategory]; decide)
  rw [← Constructor.written_of_series hcategory (Constructor.tickerSlot.name, .quoted t)]
  rcases ticker_cases hticker with
    ⟨r, rest, rfl, hnone, hr⟩ | ⟨rfl, k, hone, hk⟩ | ⟨rfl, hnone, rfl⟩
  · -- The ticker is given by position, and the other arguments after it.
    rw [hnone, List.nil_append] at hkeywords
    refine .call (by rw [hcategory]; rfl) hvariadic ?_ ?_ hwhole
    · rw [hparameters, List.length_map]
      exact Nat.succ_le_succ hlength
    · rw [Constructor.named, hparameters, List.map_cons, List.map_cons, hr]
      exact ((hkeywords.append_left _).trans hgiven).cons _
  · -- The ticker is one of the keywords, and there is nothing but keywords.
    have hmem : k ∈ ks.filter isTickerKey := hone ▸ List.mem_singleton_self k
    have hkey : k.1 = Constructor.tickerSlot.name := beq_iff_eq.1 (List.mem_filter.1 hmem).2
    rw [hone, List.singleton_append, List.map_cons, hkey, hk] at hkeywords
    rw [List.drop_nil, List.map_nil, List.zip_nil_right, List.nil_append] at hgiven
    refine .call (by rw [hcategory]; rfl) hvariadic (Nat.zero_le _) ?_ hwhole
    rw [Constructor.named, List.map_nil, List.zip_nil_right, List.nil_append]
    exact hkeywords.trans (hgiven.cons _)
  · -- The ticker is left to the strategy.
    rw [hnone, List.nil_append] at hkeywords
    rw [List.drop_nil, List.map_nil, List.zip_nil_right, List.nil_append] at hgiven
    exact .ownTicker htakes ((hkeywords.trans hgiven).cons _) hwhole

/-- **A call that is read as a series** without a note restates it. -/
theorem restated_of_seriesOfCall {callee : String} {s : Series}
    (hargs : ∀ r ∈ args, r.Faithful cx.ticker) (hks : ∀ k ∈ ks, k.2.Faithful cx.ticker)
    (h : seriesOfCall cx callee args ks = pure s) :
    Expr.Restated cx.ticker .series
      (.call callee (args.map (·.expr)) (ks.map fun k => (k.1, k.2.expr))) s.toExpr := by
  obtain ⟨c, hresolve, hrest⟩ := bind_eq_pure.1 h
  obtain ⟨rfl, hcategory⟩ := resolve_eq_pure hresolve
  split at hrest
  · next htakes =>
    obtain ⟨t, hticker, hrest⟩ := bind_eq_pure.1 hrest
    obtain ⟨vs, hvs, hbuilt⟩ := bind_eq_pure.1 hrest
    obtain ⟨written, hexpr, hspells⟩ := series?_spells (built_eq_pure hbuilt)
    rw [hexpr]
    exact restated_of_ticker htakes hcategory hargs hks hticker hvs hspells
  · next htakes =>
    -- Only the constant series has no ticker.
    obtain rfl : c = .const := by
      by_contra hne
      refine htakes ?_
      rw [Constructor.takesTicker, decide_eq_true hcategory, Bool.true_and]
      exact bne_iff_ne.2 hne
    obtain ⟨vs, hvs, hbuilt⟩ := bind_eq_pure.1 hrest
    obtain ⟨hproblems, hread⟩ := readAs_of_callValues hvs
    obtain ⟨v, hv, rfl⟩ := Option.map_eq_some_iff.1 (built_eq_pure hbuilt)
    have hspells : vs.Spells Constructor.const.slots [("value", .int v)] :=
      .cons ⟨rfl, Values.writes_int hv⟩ .nil
    obtain ⟨hlength, given, hgiven, harguments⟩ :=
      exists_restatedArguments hargs hks hproblems hread hspells
    change Expr.Restated cx.ticker .series _ (Constructor.const.written [("value", .int v)])
    exact .call rfl rfl ((List.length_map _).trans_le hlength) hgiven harguments

/-! ### Expressions -/

theorem stands_of_absentOr {α : Type} {category : Category} {ticker : String} {tag : Tag}
    {e : Expr} {x : Option α} (toExpr : α → Expr) (h : absentOr category e = pure x) :
    Expr.Stands ticker tag e (x.map toExpr) := by
  unfold absentOr at h
  split at h
  · next hnone =>
    cases (eq_pure_iff.1 h).2
    exact hnone
  · exact absurd h fail_ne_pure

theorem faithful_ofOther (ticker : String) (e : Expr) : (ofOther e).Faithful ticker where
  condition := fun _ h => absurd h fail_ne_pure
  series := fun _ h => absurd h fail_ne_pure
  orderSize := fun _ h => absurd h fail_ne_pure
  commission := fun _ h => stands_of_absentOr _ h
  stopLoss := fun _ h => stands_of_absentOr _ h
  takeProfit := fun _ h => stands_of_absentOr _ h

/-- **Every reading is faithful.** -/
theorem faithful_of (cx : Context) (e : Expr) : (of cx e).Faithful cx.ticker := by
  induction e using Expr.induct with
  | literal l => exact faithful_ofOther cx.ticker _
  | member k m => exact faithful_ofOther cx.ticker _
  | name w => exact faithful_ofOther cx.ticker _
  | call callee ps kes hps hkes =>
    have hargs : ∀ r ∈ ps.map (of cx), r.Faithful cx.ticker := List.forall_mem_map.2 hps
    have hks : ∀ k ∈ kes.map fun ke => (ke.1, of cx ke.2), k.2.Faithful cx.ticker :=
      List.forall_mem_map.2 hkes
    -- The arguments know their expressions, so the call is made of them again.
    have hcall : Expr.call callee ((ps.map (of cx)).map (·.expr))
        ((kes.map fun ke => (ke.1, of cx ke.2)).map fun k => (k.1, k.2.expr)) =
          .call callee ps kes := by
      simp [Function.comp_def]
    rw [of_call]
    exact
      { condition := fun k h => hcall ▸ restated_of_conditionOfCall hargs hks h
        series := fun s h => hcall ▸ restated_of_seriesOfCall hargs hks h
        orderSize := fun x h => hcall ▸ stands_of_settingOfCall rfl (by decide)
          (fun _ _ _ _ => orderSize?_spells) hargs hks h
        commission := fun x h => hcall ▸ stands_of_settingOfCall rfl (by decide)
          (fun _ _ _ _ => commission?_spells) hargs hks h
        stopLoss := fun x h => hcall ▸ stands_of_settingOfCall rfl (by decide)
          (fun _ _ _ => stopLoss?_spells) hargs hks h
        takeProfit := fun x h => hcall ▸ stands_of_settingOfCall rfl (by decide)
          (fun _ _ _ => takeProfit?_spells) hargs hks h }

end Reading

end TradeSignals
