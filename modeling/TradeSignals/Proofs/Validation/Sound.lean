import TradeSignals.Proofs.Decimal.Order
import TradeSignals.Proofs.Expr.Tree
import TradeSignals.Proofs.Outcome
import TradeSignals.Proofs.Strategy.InRange
import TradeSignals.Proofs.Validation.Exact
import TradeSignals.Validation.Reading

/-!
# What is read is in range

Whatever expression is read as a condition, a series or a setting, what comes out is in
range, because every parameter is checked for its range where it is read, and a ticker
that is none gives way to that of the context. Repairs only take calls away, so what comes
out is not deeper than the expression either.

Both are proved together, by induction on the expression: `TradeSignals.Reading.sound_of`.
-/

namespace TradeSignals

/-! ### Verdicts -/

namespace Verdict

variable {ν ε α β : Type}

/-- A check in two parts has a value if both parts have. -/
theorem result_bind_eq_ok {v : Verdict ν ε α} {f : α → Verdict ν ε β} {b : β} :
    (v >>= f).result = .ok b ↔ ∃ a, v.result = .ok a ∧ (f a).result = .ok b := by
  constructor
  · intro h
    cases hv : v.result with
    | error e =>
      rw [bind_of_error hv] at h
      cases h
    | ok a =>
      rw [result_bind_of_ok hv] at h
      exact ⟨a, rfl, h⟩
  · rintro ⟨a, hv, h⟩
    rwa [result_bind_of_ok hv]

theorem result_map_eq_ok {v : Verdict ν ε α} {g : α → β} {b : β} :
    (g <$> v).result = .ok b ↔ ∃ a, v.result = .ok a ∧ g a = b := by
  rw [← bind_pure_comp, result_bind_eq_ok]
  refine exists_congr fun a => and_congr_right fun _ => ?_
  exact ⟨fun h => Except.ok.inj h, fun h => congrArg Except.ok h⟩

end Verdict

open Verdict

/-! ### Values -/

/-- Is a value of a parameter in range, and not deeper than an argument of depth `n`? -/
def Value.Sound (today : Date) (owner : Option Constructor) (parameter : String) (n : ℕ) :
    Value → Prop
  | .int value => owner = some .const ∨ 1 ≤ value
  | .float value => value.isFinite = true ∧
    ∀ limit ∈ Limit.of owner parameter, limit.excludes value = false
  | .ticker value => Ticker.isValid value = true
  | .date value => value ≤ today
  | .condition value => value.InRange ∧ value.toExpr.depth ≤ n
  | .series value => value.InRange ∧ value.toExpr.depth ≤ n
  | .orderSize value => value.InRange
  | .commission value => ∀ c, value = some c → c.InRange
  | .stopLoss value => ∀ x, value = some x → x.InRange
  | .takeProfit value => ∀ x, value = some x → x.InRange
  | _ => True

/-- Values that are sound for a constructor, under their parameters. -/
def Values.Sound (today : Date) (c : Constructor) (n : ℕ) (vs : Values) : Prop :=
  ∀ p ∈ vs, p.2.Sound today (some c) p.1 n

/-- **A sound reading**: what an expression comes to is in range, and as shallow as the
expression. -/
structure Reading.Sound (r : Reading) : Prop where
  /-- As a condition. -/
  condition : ∀ c, r.condition.result = .ok c → c.InRange ∧ c.toExpr.depth ≤ r.expr.depth
  /-- As a series. -/
  series : ∀ s, r.series.result = .ok s → s.InRange ∧ s.toExpr.depth ≤ r.expr.depth
  /-- As an order size. -/
  orderSize : ∀ size, r.orderSize.result = .ok size → size.InRange
  /-- As a commission. -/
  commission : ∀ c, r.commission.result = .ok (some c) → c.InRange
  /-- As a stop loss. -/
  stopLoss : ∀ x, r.stopLoss.result = .ok (some x) → x.InRange
  /-- As a take profit. -/
  takeProfit : ∀ x, r.takeProfit.result = .ok (some x) → x.InRange

/-! ### Parameters -/

namespace Plain

theorem isFinite_of_float {e : Expr} {x : Float} (h : float e = .ok x) : x.isFinite = true := by
  have hfinite : ∀ y, finite y = .ok x → x.isFinite = true := by
    intro y hy
    rw [finite] at hy
    split at hy <;> cases hy
    assumption
  unfold float at h
  split at h
  · exact hfinite _ h
  · exact hfinite _ h
  · cases h

theorem isValid_of_ticker {e : Expr} {t : String} (h : ticker e = .ok t) :
    Ticker.isValid t = true := by
  unfold ticker at h
  split at h
  · split at h <;> cases h
    assumption
  · cases h

theorem notAfter_of_date {today : Date} {e : Expr} {d : Date} (h : date today e = .ok d) :
    d ≤ today := by
  unfold date at h
  split at h
  · cases hread : dateOf _ with
    | error fault =>
      rw [hread] at h
      cases h
    | ok d' =>
      rw [hread] at h
      change (if today < d' then _ else _) = Except.ok d at h
      split at h
      · cases h
      · cases h
        exact Int.not_lt.1 ‹_›
  · cases h

end Plain

namespace Reading

theorem value_int {owner : Option Constructor} {parameter : String} {v : Int64}
    (h : (Value.int v).outOfRange? owner parameter = none) : owner = some .const ∨ 1 ≤ v := by
  rw [Value.outOfRange?] at h
  split at h
  · cases h
  · next hrange =>
    rcases not_and_or.1 hrange with hrange | hrange
    · exact .inl (not_not.1 hrange)
    · refine .inr (Int64.le_iff_toInt_le.2 ?_)
      have hlt := mt Int64.lt_iff_toInt_lt.2 hrange
      exact Int.not_lt.1 hlt

theorem value_float {owner : Option Constructor} {parameter : String} {x : Float}
    (h : (Value.float x).outOfRange? owner parameter = none) :
    ∀ limit ∈ Limit.of owner parameter, limit.excludes x = false := by
  intro limit hmem
  rw [Value.outOfRange?, Option.map_eq_none_iff, List.find?_eq_none] at h
  exact Bool.eq_false_iff.2 (h limit hmem)

/-- **The value of a parameter is sound**, if its argument is. -/
theorem parameter_sound {cx : Context} {owner : Option Constructor} {slot : Slot} {r : Reading}
    {v : Value} (hr : r.Sound) (h : (r.parameter cx owner slot).result = .ok v) :
    v.Sound cx.today owner slot.name r.expr.depth := by
  obtain ⟨value, hvalue, hrest⟩ := result_bind_eq_ok.1 h
  have hrange : value.outOfRange? owner slot.name = none ∧ value = v := by
    split at hrest
    · cases hrest
    · exact ⟨‹_›, Except.ok.inj hrest⟩
  obtain ⟨hrange, rfl⟩ := hrange
  -- The tag alone decides how the argument is read.
  generalize slot.tag = tag at hvalue
  cases tag with
  | int =>
    obtain ⟨a, ha, rfl⟩ := Except.map_eq_ok.1 hvalue
    exact value_int hrange
  | float =>
    obtain ⟨a, ha, rfl⟩ := Except.map_eq_ok.1 hvalue
    exact ⟨Plain.isFinite_of_float ha, value_float hrange⟩
  | ticker =>
    obtain ⟨a, ha, rfl⟩ := Except.map_eq_ok.1 hvalue
    exact Plain.isValid_of_ticker ha
  | date =>
    obtain ⟨a, ha, rfl⟩ := Except.map_eq_ok.1 hvalue
    exact Plain.notAfter_of_date ha
  | choice kind =>
    cases kind <;> obtain ⟨a, -, rfl⟩ := Except.map_eq_ok.1 hvalue <;> trivial
  | condition =>
    obtain ⟨a, ha, rfl⟩ := result_map_eq_ok.1 hvalue
    exact hr.condition a ha
  | series =>
    obtain ⟨a, ha, rfl⟩ := result_map_eq_ok.1 hvalue
    exact hr.series a ha
  | orderSize =>
    obtain ⟨a, ha, rfl⟩ := result_map_eq_ok.1 hvalue
    exact hr.orderSize a ha
  | commission =>
    obtain ⟨a, ha, rfl⟩ := result_map_eq_ok.1 hvalue
    rintro c rfl
    exact hr.commission c ha
  | stopLoss =>
    obtain ⟨a, ha, rfl⟩ := result_map_eq_ok.1 hvalue
    rintro x rfl
    exact hr.stopLoss x ha
  | takeProfit =>
    obtain ⟨a, ha, rfl⟩ := result_map_eq_ok.1 hvalue
    rintro x rfl
    exact hr.takeProfit x ha
  | bool | retracement =>
    -- Of these nothing is asked.
    obtain ⟨a, -, rfl⟩ := Except.map_eq_ok.1 hvalue
    trivial

end Reading

/-! ### Binding -/

namespace Binding

variable {α : Type}

theorem mem_bound_positional {n : ℕ} {slots : List Slot} {args : List α} :
    ∀ p ∈ (positional n slots args).bound, p.1 ∈ slots ∧ p.2 ∈ args := by
  rw [positional_eq]
  exact fun p hp => List.of_mem_zip hp

/-- What is bound are arguments of the call. -/
theorem mem_bound_ofCall {c : Constructor} {args : List α} {ks : List (String × α)} :
    ∀ p ∈ (ofCall c args ks).bound, p.2 ∈ args ∨ ∃ k ∈ ks, k.2 = p.2 := by
  have hfold : ∀ (rest : List (String × α)) (b : Binding α), (∀ k ∈ rest, k ∈ ks) →
      (∀ p ∈ b.bound, p.2 ∈ args ∨ ∃ k ∈ ks, k.2 = p.2) →
        ∀ p ∈ (rest.foldl (keyword c) b).bound, p.2 ∈ args ∨ ∃ k ∈ ks, k.2 = p.2 := by
    -- A keyword adds its own argument or nothing, so the fold keeps what is bound.
    intro rest
    induction rest with
    | nil => exact fun _ _ hb => hb
    | cons k rest ih =>
      intro b hrest hb
      refine ih _ (fun k hk => hrest k (List.mem_cons_of_mem _ hk)) fun p hp => ?_
      unfold keyword at hp
      split at hp
      · exact hb p hp
      · split at hp
        · exact hb p hp
        · rcases List.mem_append.1 hp with hp | hp
          · exact hb p hp
          · obtain rfl := List.mem_singleton.1 hp
            exact .inr ⟨k, hrest k List.mem_cons_self, rfl⟩
  exact hfold ks _ (fun _ hk => hk) fun p hp => .inl (mem_bound_positional p hp).2

end Binding

namespace Reading

variable {cx : Context} {c : Constructor} {n : ℕ} {vs : Values}

/-! ### Values of calls -/

/-- Readings that are sound, of arguments of depth `n` at most. -/
def SoundWithin (n : ℕ) (r : Reading) : Prop :=
  r.Sound ∧ r.expr.depth ≤ n

theorem parameter_soundWithin {slot : Slot} {r : Reading} {v : Value} (hr : r.SoundWithin n)
    (h : (r.parameter cx (some c) slot).result = .ok v) :
    v.Sound cx.today (some c) slot.name n := by
  have hsound := parameter_sound hr.1 h
  cases v with
  | condition | series => exact ⟨hsound.1, hsound.2.trans hr.2⟩
  | _ => exact hsound

theorem usableValues_sound {bound : List (Slot × Reading)} (hb : ∀ p ∈ bound, p.2.SoundWithin n)
    (h : (usableValues cx c bound).result = .ok vs) : vs.Sound cx.today c n := by
  -- Arguments without a value are noted and left out, and the others are sound one by one.
  induction bound generalizing vs with
  | nil =>
    cases h
    exact fun _ hp => nomatch hp
  | cons p bound ih =>
    have hrest := fun q hq => hb q (List.mem_cons_of_mem _ hq)
    obtain ⟨x, hx, h⟩ := result_bind_eq_ok.1 h
    cases x with
    | error fault =>
      obtain ⟨-, -, h⟩ := result_bind_eq_ok.1 h
      exact ih hrest h
    | ok value =>
      obtain ⟨vs', hvs', h⟩ := result_bind_eq_ok.1 h
      cases h
      exact List.forall_mem_cons.2
        ⟨parameter_soundWithin (hb p List.mem_cons_self) (Except.ok.inj hx), ih hrest hvs'⟩

theorem allValues_sound {bound : List (Slot × Reading)} (hb : ∀ p ∈ bound, p.2.SoundWithin n)
    (h : (allValues cx c bound).result = .ok vs) : vs.Sound cx.today c n := by
  induction bound generalizing vs with
  | nil =>
    cases h
    exact fun _ hp => nomatch hp
  | cons p bound ih =>
    obtain ⟨value, hvalue, h⟩ := result_bind_eq_ok.1 h
    obtain ⟨vs', hvs', h⟩ := result_bind_eq_ok.1 h
    cases h
    have hparameter : (p.2.parameter cx (some c) p.1).result = .ok value := by
      change Except.mapError _ (p.2.parameter cx (some c) p.1).result = _ at hvalue
      cases hp : (p.2.parameter cx (some c) p.1).result with
      | error fault =>
        rw [hp] at hvalue
        cases hvalue
      | ok v =>
        rw [hp] at hvalue
        cases hvalue
        rfl
    exact List.forall_mem_cons.2 ⟨parameter_soundWithin (hb p List.mem_cons_self) hparameter,
      ih (fun q hq => hb q (List.mem_cons_of_mem _ hq)) hvs'⟩

theorem soundWithin_bound {args : List Reading} {ks : List (String × Reading)}
    (hargs : ∀ r ∈ args, r.SoundWithin n) (hks : ∀ k ∈ ks, k.2.SoundWithin n) :
    ∀ p ∈ (Binding.ofCall c args ks).bound, p.2.SoundWithin n := by
  intro p hp
  rcases Binding.mem_bound_ofCall p hp with h | ⟨k, hk, h⟩
  · exact hargs _ h
  · exact h ▸ hks k hk

/-- **The values of a call are sound**, if its arguments are. -/
theorem callValues_sound {args : List Reading} {ks : List (String × Reading)}
    (hargs : ∀ r ∈ args, r.SoundWithin n) (hks : ∀ k ∈ ks, k.2.SoundWithin n)
    (h : (callValues cx c args ks).result = .ok vs) : vs.Sound cx.today c n := by
  obtain ⟨-, -, h⟩ := result_bind_eq_ok.1 h
  exact usableValues_sound (soundWithin_bound hargs hks) h

/-! ### Values by name -/

theorem mem_of_lookup {key : String} {v : Value} (h : vs.lookup key = some v) : (key, v) ∈ vs := by
  obtain ⟨before, after, hsplit, -⟩ := List.lookup_eq_some_iff.1 h
  rw [hsplit]
  exact List.mem_append_right _ List.mem_cons_self

theorem int_of_values {today : Date} {key : String} {v : Int64} (hvs : vs.Sound today c n)
    (hc : c ≠ .const) (h : vs.int? key = some v) : 1 ≤ v := by
  unfold Values.int? at h
  split at h
  · next hl =>
    cases h
    rcases hvs _ (mem_of_lookup hl) with hconst | hv
    · exact absurd (Option.some.inj hconst) hc
    · exact hv
  · cases h

theorem length_of_values {today : Date} {key : String} {m : UInt64} (hvs : vs.Sound today c n)
    (hc : c ≠ .const) (h : vs.length? key = some m) : LengthInRange m := by
  obtain ⟨v, hv, rfl⟩ := Option.map_eq_some_iff.1 h
  have hone := Int64.le_iff_toInt_le.1 (int_of_values hvs hc hv)
  have hlt := v.toInt_lt
  -- A positive integer is the same number without its sign.
  have hcond : v.toInt = if 2 * v.toUInt64.toNat < 2 ^ 64 then (v.toUInt64.toNat : ℤ)
      else v.toUInt64.toNat - (2 ^ 64 : ℕ) := BitVec.toInt_eq_toNat_cond v.toBitVec
  have hbound := v.toUInt64.toNat_lt
  have h1 : (1 : Int64).toInt = 1 := rfl
  split at hcond <;> constructor <;> omega

theorem float_of_values {today : Date} {key : String} {x : Float} (hvs : vs.Sound today c n)
    (h : vs.float? key = some x) : x.isFinite = true ∧
      ∀ limit ∈ Limit.of (some c) key, limit.excludes x = false := by
  unfold Values.float? at h
  split at h
  · next hl =>
    cases h
    exact hvs _ (mem_of_lookup hl)
  · cases h

theorem series_of_values {today : Date} {key : String} {s : Series} (hvs : vs.Sound today c n)
    (h : vs.series? key = some s) : s.InRange ∧ s.toExpr.depth ≤ n := by
  unfold Values.series? at h
  split at h
  · next hl =>
    cases h
    exact hvs _ (mem_of_lookup hl)
  · cases h

theorem condition_of_values {today : Date} {key : String} {k : Condition}
    (hvs : vs.Sound today c n) (h : vs.condition? key = some k) :
    k.InRange ∧ k.toExpr.depth ≤ n := by
  unfold Values.condition? at h
  split at h
  · next hl =>
    cases h
    exact hvs _ (mem_of_lookup hl)
  · cases h

/-! ### Conditions -/

theorem depth_call_keywords {callee : String} {ks : List (String × Expr)}
    (h : ∀ ke ∈ ks, ke.2.depth ≤ n) : (Expr.call callee [] ks).depth ≤ n + 1 :=
  Expr.depth_call_le.2 ⟨fun _ he => (nomatch he), h⟩

theorem depth_lengthExpr (m : UInt64) : (Series.lengthExpr m).depth ≤ n :=
  Nat.zero_le n

theorem depth_float (x : Float) : (Expr.float x).depth ≤ n :=
  Nat.zero_le n

theorem comparison?_sound {today : Date} {relation : Relation} {k : Condition}
    (hvs : vs.Sound today c n) (h : comparison? relation vs = some k) :
    k.InRange ∧ k.toExpr.depth ≤ n + 1 := by
  obtain ⟨first, hfirst, h⟩ := Option.bind_eq_some_iff.1 h
  obtain ⟨second, hsecond, h⟩ := Option.bind_eq_some_iff.1 h
  cases h
  obtain ⟨h1, hd1⟩ := series_of_values hvs hfirst
  obtain ⟨h2, hd2⟩ := series_of_values hvs hsecond
  exact ⟨⟨h1, h2⟩, depth_call_keywords (List.forall_mem_cons.2 ⟨hd1,
    List.forall_mem_singleton.2 hd2⟩)⟩

theorem trend?_sound {today : Date} {direction : Direction} {k : Condition}
    (hvs : vs.Sound today c n) (hc : c ≠ .const) (h : trend? direction vs = some k) :
    k.InRange ∧ k.toExpr.depth ≤ n + 1 := by
  obtain ⟨s, hs, h⟩ := Option.bind_eq_some_iff.1 h
  obtain ⟨days, hdays, h⟩ := Option.bind_eq_some_iff.1 h
  cases h
  obtain ⟨h1, hd1⟩ := series_of_values hvs hs
  exact ⟨⟨h1, length_of_values hvs hc hdays⟩, depth_call_keywords (List.forall_mem_cons.2 ⟨hd1,
    List.forall_mem_singleton.2 (depth_lengthExpr days)⟩)⟩

/-- What a constructor builds from sound values is in range. -/
theorem condition?_sound {today : Date} {k : Condition} (hvs : vs.Sound today c n)
    (h : condition? c vs = some k) : k.InRange ∧ k.toExpr.depth ≤ n + 1 := by
  cases c with
  | greaterThan | lessThan | crossOver | crossUnder => exact comparison?_sound hvs h
  | uptrend | downtrend => exact trend?_sound hvs (by decide) h
  | afterDays =>
    obtain ⟨base, hbase, h⟩ := Option.bind_eq_some_iff.1 h
    obtain ⟨days, hdays, h⟩ := Option.bind_eq_some_iff.1 h
    cases h
    obtain ⟨h1, hd1⟩ := condition_of_values hvs hbase
    exact ⟨⟨h1, length_of_values hvs (by decide) hdays⟩, depth_call_keywords
      (List.forall_mem_cons.2 ⟨hd1, List.forall_mem_singleton.2 (depth_lengthExpr days)⟩)⟩
  | changePerDays =>
    obtain ⟨s, hs, h⟩ := Option.bind_eq_some_iff.1 h
    obtain ⟨percent, hpercent, h⟩ := Option.bind_eq_some_iff.1 h
    obtain ⟨days, hdays, h⟩ := Option.bind_eq_some_iff.1 h
    cases h
    obtain ⟨h1, hd1⟩ := series_of_values hvs hs
    refine ⟨⟨h1, (float_of_values hvs hpercent).1, length_of_values hvs (by decide) hdays⟩,
      depth_call_keywords (List.forall_mem_cons.2 ⟨hd1, List.forall_mem_cons.2
        ⟨depth_float percent, List.forall_mem_singleton.2 (depth_lengthExpr days)⟩⟩)⟩
  | changePerBar =>
    obtain ⟨s, hs, h⟩ := Option.bind_eq_some_iff.1 h
    obtain ⟨percent, hpercent, h⟩ := Option.bind_eq_some_iff.1 h
    cases h
    obtain ⟨h1, hd1⟩ := series_of_values hvs hs
    exact ⟨⟨h1, (float_of_values hvs hpercent).1⟩, depth_call_keywords
      (List.forall_mem_cons.2 ⟨hd1, List.forall_mem_singleton.2 (depth_float percent)⟩)⟩
  | _ => cases h

theorem usableConditions_sound {i : ℕ} {args : List Reading} {cs : List Condition}
    (hargs : ∀ r ∈ args, r.SoundWithin n) (h : (usableConditions c i args).result = .ok cs) :
    ∀ k ∈ cs, k.InRange ∧ k.toExpr.depth ≤ n := by
  induction args generalizing i cs with
  | nil =>
    cases h
    exact fun _ hk => nomatch hk
  | cons r args ih =>
    have hrest := fun q hq => hargs q (List.mem_cons_of_mem _ hq)
    obtain ⟨x, hx, h⟩ := result_bind_eq_ok.1 h
    cases x with
    | error fault =>
      obtain ⟨-, -, h⟩ := result_bind_eq_ok.1 h
      exact ih hrest h
    | ok k =>
      obtain ⟨cs', hcs', h⟩ := result_bind_eq_ok.1 h
      cases h
      obtain ⟨hr, hdepth⟩ := hargs r List.mem_cons_self
      obtain ⟨hk, hkdepth⟩ := hr.condition k (Except.ok.inj hx)
      exact List.forall_mem_cons.2 ⟨⟨hk, hkdepth.trans hdepth⟩, ih hrest hcs'⟩

theorem built_eq_ok {α : Type} {result : Option α} {a : α}
    (h : (built c vs result).result = .ok a) : result = some a := by
  unfold built at h
  split at h <;> cases h
  rfl

/-- **A call that is read as a condition** gives one in range. -/
theorem conditionOfCall_sound {callee : String} {args : List Reading}
    {ks : List (String × Reading)} {k : Condition} (hargs : ∀ r ∈ args, r.SoundWithin n)
    (hks : ∀ k ∈ ks, k.2.SoundWithin n)
    (h : (conditionOfCall cx callee args ks).result = .ok k) :
    k.InRange ∧ k.toExpr.depth ≤ n + 1 := by
  obtain ⟨c, -, h⟩ := result_bind_eq_ok.1 h
  -- A junction has conditions as arguments, everything else has parameters.
  split at h
  · obtain ⟨-, -, h⟩ := result_bind_eq_ok.1 h
    obtain ⟨cs, hcs, h⟩ := result_bind_eq_ok.1 h
    have hsound := usableConditions_sound hargs hcs
    have hdepth : ∀ callee : String,
        (Expr.call callee (Condition.toExprs cs) []).depth ≤ n + 1 := by
      intro callee
      rw [Expr.depth_call_le, Condition.toExprs_eq]
      exact ⟨List.forall_mem_map.2 fun d hd => (hsound d hd).2, fun _ hke => (nomatch hke)⟩
    have hrange : Condition.AllInRange cs :=
      Condition.allInRange_iff.2 fun d hd => (hsound d hd).1
    split at h
    · cases h
    · next hne =>
      cases h
      split
      · exact ⟨⟨hne, hrange⟩, hdepth _⟩
      · exact ⟨⟨hne, hrange⟩, hdepth _⟩
  · obtain ⟨vs, hvs, h⟩ := result_bind_eq_ok.1 h
    exact condition?_sound (callValues_sound hargs hks hvs) (built_eq_ok h)

/-! ### Series -/

/-- A series is written as a call whose arguments are no calls. -/
theorem depth_toExpr_series (s : Series) : s.toExpr.depth ≤ 1 := by
  cases s <;> exact Nat.le_refl 1

theorem isPositive_of_limit {x : Float} (hx : x.isFinite = true)
    (h : Limit.excludes .aboveZero x = false) : IsPositive x :=
  ⟨hx, (FloatOrder.lt_iff_not_le (by decide +kernel) (FloatOrder.isNaN_of_isFinite hx)).2
    (of_decide_eq_false h)⟩

theorem isPercentage_of_limits {x : Float} (hx : x.isFinite = true)
    (hpositive : Limit.excludes .aboveZero x = false)
    (hmost : Limit.excludes .atMostHundred x = false) : IsPercentage x := by
  refine ⟨hx, (isPositive_of_limit hx hpositive).2, ?_⟩
  by_contra hle
  have hlt := (FloatOrder.lt_iff_not_le (by decide +kernel)
    (FloatOrder.isNaN_of_isFinite hx)).2 hle
  exact of_decide_eq_false hmost hlt

theorem isCost_of_limit {x : Float} (hx : x.isFinite = true)
    (h : Limit.excludes .notNegative x = false) : IsCost x := by
  refine ⟨hx, ?_⟩
  by_contra hle
  have hlt := (FloatOrder.lt_iff_not_le (FloatOrder.isNaN_of_isFinite hx)
    (by decide +kernel)).2 hle
  exact of_decide_eq_false h hlt

theorem windowed?_sound {today : Date} {study : Study} {ticker : String} {s : Series}
    (hvs : vs.Sound today c n) (hc : c ≠ .const) (hticker : Ticker.isValid ticker = true)
    (h : windowed? study ticker vs = some s) : s.InRange := by
  obtain ⟨length, hlength, h⟩ := Option.bind_eq_some_iff.1 h
  cases h
  exact ⟨hticker, length_of_values hvs hc hlength⟩

theorem band?_sound {today : Date} {side : BandSide} {ticker : String} {s : Series}
    (hvs : vs.Sound today c n) (hc : c = .upperBand ∨ c = .lowerBand)
    (hticker : Ticker.isValid ticker = true) (h : band? side ticker vs = some s) : s.InRange := by
  obtain ⟨length, hlength, h⟩ := Option.bind_eq_some_iff.1 h
  obtain ⟨deviations, hdeviations, h⟩ := Option.bind_eq_some_iff.1 h
  cases h
  obtain ⟨hfinite, hlimit⟩ := float_of_values hvs hdeviations
  have hne : c ≠ .const := by
    rcases hc with rfl | rfl <;> decide
  have hpositive : Limit.excludes .aboveZero deviations = false := by
    rcases hc with rfl | rfl <;> exact hlimit _ List.mem_cons_self
  exact ⟨hticker, length_of_values hvs hne hlength, isPositive_of_limit hfinite hpositive⟩

/-- What a constructor builds from sound values and a ticker is in range. -/
theorem series?_sound {today : Date} {ticker : String} {s : Series} (hvs : vs.Sound today c n)
    (hticker : Ticker.isValid ticker = true) (h : series? c ticker vs = some s) : s.InRange := by
  cases c with
  | sma | ema | wma | rsi | roc | stddev | atr => exact windowed?_sound hvs (by decide) hticker h
  | upperBand => exact band?_sound hvs (.inl rfl) hticker h
  | lowerBand => exact band?_sound hvs (.inr rfl) hticker h
  | price =>
    obtain ⟨field, -, h⟩ := Option.bind_eq_some_iff.1 h
    cases h
    exact hticker
  | obv =>
    cases h
    exact hticker
  | macd =>
    obtain ⟨fast, hfast, h⟩ := Option.bind_eq_some_iff.1 h
    obtain ⟨slow, hslow, h⟩ := Option.bind_eq_some_iff.1 h
    cases h
    exact ⟨hticker, length_of_values hvs (by decide) hfast, length_of_values hvs (by decide) hslow⟩
  | macdSignal =>
    obtain ⟨fast, hfast, h⟩ := Option.bind_eq_some_iff.1 h
    obtain ⟨slow, hslow, h⟩ := Option.bind_eq_some_iff.1 h
    obtain ⟨signal, hsignal, h⟩ := Option.bind_eq_some_iff.1 h
    cases h
    exact ⟨hticker, length_of_values hvs (by decide) hfast, length_of_values hvs (by decide) hslow,
      length_of_values hvs (by decide) hsignal⟩
  | retracement =>
    obtain ⟨level, -, h⟩ := Option.bind_eq_some_iff.1 h
    obtain ⟨length, hlength, h⟩ := Option.bind_eq_some_iff.1 h
    cases h
    exact ⟨hticker, length_of_values hvs (by decide) hlength⟩
  | _ => cases h

theorem seriesTicker_sound {given : List Reading} {ticker : String}
    (hcx : Ticker.isValid cx.ticker = true) (h : (seriesTicker cx c given).result = .ok ticker) :
    Ticker.isValid ticker = true := by
  obtain ⟨-, -, h⟩ := result_bind_eq_ok.1 h
  split at h
  · cases h
    exact hcx
  · split at h
    · next hplain =>
      cases h
      exact Plain.isValid_of_ticker hplain
    · obtain ⟨-, -, h⟩ := result_bind_eq_ok.1 h
      cases h
      exact hcx

/-- **A call that is read as a series** gives one in range. -/
theorem seriesOfCall_sound {callee : String} {args : List Reading} {ks : List (String × Reading)}
    {s : Series} (hcx : Ticker.isValid cx.ticker = true) (hargs : ∀ r ∈ args, r.SoundWithin n)
    (hks : ∀ k ∈ ks, k.2.SoundWithin n) (h : (seriesOfCall cx callee args ks).result = .ok s) :
    s.InRange ∧ s.toExpr.depth ≤ n + 1 := by
  refine ⟨?_, (depth_toExpr_series s).trans (Nat.le_add_left 1 n)⟩
  obtain ⟨c, -, h⟩ := result_bind_eq_ok.1 h
  -- A constant is the one series without a ticker.
  split at h
  · obtain ⟨ticker, hticker, h⟩ := result_bind_eq_ok.1 h
    obtain ⟨vs, hvs, h⟩ := result_bind_eq_ok.1 h
    have hsound := callValues_sound (fun r hr => hargs r (List.mem_of_mem_drop hr))
      (fun k hk => hks k (List.mem_filter.1 hk).1) hvs
    exact series?_sound hsound (seriesTicker_sound hcx hticker) (built_eq_ok h)
  · obtain ⟨vs, -, h⟩ := result_bind_eq_ok.1 h
    obtain ⟨v, -, rfl⟩ := Option.map_eq_some_iff.1 (built_eq_ok h)
    trivial

/-! ### Settings -/

/-- A setting is built from sound values. -/
theorem settingOfCall_sound {α : Type} {category : Category}
    {build? : Constructor → Values → Option α} {callee : String} {args : List Reading}
    {ks : List (String × Reading)} {a : α} (hargs : ∀ r ∈ args, r.SoundWithin n)
    (hks : ∀ k ∈ ks, k.2.SoundWithin n)
    (h : (settingOfCall cx category build? callee args ks).result = .ok a) :
    ∃ c vs, c.category = category ∧ vs.Sound cx.today c n ∧ build? c vs = some a := by
  unfold settingOfCall at h
  split at h
  · cases h
  · next c hc =>
    dsimp only at h
    split at h
    · cases h
    · split at h
      · cases h
      · obtain ⟨vs, hvs, h⟩ := result_bind_eq_ok.1 h
        refine ⟨c, vs, ?_, allValues_sound (soundWithin_bound hargs hks) hvs, ?_⟩
        · rw [Constructor.ofNameIn?, Option.filter_eq_some_iff] at hc
          exact of_decide_eq_true hc.2
        · split at h <;> cases h
          assumption

theorem orderSize?_sound {today : Date} {size : OrderSize} (hvs : vs.Sound today c n)
    (h : orderSize? c vs = some size) : size.InRange := by
  cases c with
  | contracts =>
    obtain ⟨v, hv, rfl⟩ := Option.map_eq_some_iff.1 h
    exact int_of_values hvs (by decide) hv
  | usd =>
    obtain ⟨x, hx, rfl⟩ := Option.map_eq_some_iff.1 h
    obtain ⟨hfinite, hlimit⟩ := float_of_values hvs hx
    exact isPositive_of_limit hfinite (hlimit _ List.mem_cons_self)
  | percentOfPortfolio =>
    obtain ⟨x, hx, rfl⟩ := Option.map_eq_some_iff.1 h
    obtain ⟨hfinite, hlimit⟩ := float_of_values hvs hx
    exact isPercentage_of_limits hfinite (hlimit _ List.mem_cons_self)
      (hlimit _ (List.mem_cons_of_mem _ List.mem_cons_self))
  | _ => cases h

theorem commission?_sound {today : Date} {commission : Commission} (hvs : vs.Sound today c n)
    (h : commission? c vs = some (some commission)) : commission.InRange := by
  cases c with
  | fixedCommission | percentCommission =>
    obtain ⟨x, hx, h⟩ := Option.map_eq_some_iff.1 h
    cases h
    obtain ⟨hfinite, hlimit⟩ := float_of_values hvs hx
    exact isCost_of_limit hfinite (hlimit _ List.mem_cons_self)
  | _ => cases h

theorem stopLoss?_sound {today : Date} {stop : StopLoss Float} (hc : c.category = .stopLoss)
    (hvs : vs.Sound today c n) (h : stopLoss? c vs = some (some stop)) : stop.InRange := by
  obtain ⟨kind, -, h⟩ := Option.bind_eq_some_iff.1 h
  obtain ⟨x, hx, h⟩ := Option.bind_eq_some_iff.1 h
  cases h
  obtain ⟨hfinite, hlimit⟩ := float_of_values hvs hx
  obtain rfl : c = .stopLoss := by
    revert hc
    cases c <;> decide
  exact isPercentage_of_limits hfinite (hlimit _ List.mem_cons_self)
    (hlimit _ (List.mem_cons_of_mem _ List.mem_cons_self))

theorem takeProfit?_sound {today : Date} {profit : TakeProfit Float}
    (hc : c.category = .takeProfit) (hvs : vs.Sound today c n)
    (h : takeProfit? c vs = some (some profit)) : profit.InRange := by
  obtain ⟨x, hx, h⟩ := Option.bind_eq_some_iff.1 h
  cases h
  obtain ⟨hfinite, hlimit⟩ := float_of_values hvs hx
  obtain rfl : c = .takeProfit := by
    revert hc
    cases c <;> decide
  exact isPositive_of_limit hfinite (hlimit _ List.mem_cons_self)

/-! ### Expressions -/

theorem sound_ofOther (e : Expr) : (ofOther e).Sound := by
  have habsent : ∀ {α : Type} (category : Category) (a : α),
      (absentOr category e).result ≠ .ok (some a) := by
    intro α category a h
    unfold absentOr at h
    split at h <;> cases h
  exact ⟨fun _ h => (nomatch h), fun _ h => (nomatch h), fun _ h => (nomatch h),
    fun _ h => absurd h (habsent _ _), fun _ h => absurd h (habsent _ _),
    fun _ h => absurd h (habsent _ _)⟩

/-- **Every reading is sound**, in a context whose ticker is one. -/
theorem sound_of {cx : Context} (hcx : Ticker.isValid cx.ticker = true) (e : Expr) :
    (of cx e).Sound := by
  -- The arguments of a call are sound, and what is no call is read as nothing of its own.
  induction e using Expr.induct with
  | literal | member | name => exact sound_ofOther _
  | call callee ps ks ihp ihk =>
    obtain ⟨n, hn⟩ : ∃ n, (Expr.call callee ps ks).depth = n + 1 := ⟨_, rfl⟩
    obtain ⟨hps, hks⟩ := Expr.depth_call_le.1 hn.le
    have hargs : ∀ r ∈ ps.map (of cx), r.SoundWithin n :=
      List.forall_mem_map.2 fun e he => ⟨ihp e he, (expr_of cx e).symm ▸ hps e he⟩
    have hkeywords : ∀ k ∈ ks.map (fun ke => (ke.1, of cx ke.2)), k.2.SoundWithin n :=
      List.forall_mem_map.2 fun ke hke => ⟨ihk ke hke, (expr_of cx ke.2).symm ▸ hks ke hke⟩
    rw [of_call]
    refine ⟨fun c h => ?_, fun s h => ?_, fun size h => ?_, fun c h => ?_, fun x h => ?_,
      fun x h => ?_⟩
    · rw [show (ofCall _ _ _ _ _).expr.depth = n + 1 from hn]
      exact conditionOfCall_sound hargs hkeywords h
    · rw [show (ofCall _ _ _ _ _).expr.depth = n + 1 from hn]
      exact seriesOfCall_sound hcx hargs hkeywords h
    · obtain ⟨c, vs, -, hvs, hbuild⟩ := settingOfCall_sound hargs hkeywords h
      exact orderSize?_sound hvs hbuild
    · obtain ⟨k, vs, -, hvs, hbuild⟩ := settingOfCall_sound hargs hkeywords h
      exact commission?_sound hvs hbuild
    · obtain ⟨c, vs, hc, hvs, hbuild⟩ := settingOfCall_sound hargs hkeywords h
      exact stopLoss?_sound hc hvs hbuild
    · obtain ⟨c, vs, hc, hvs, hbuild⟩ := settingOfCall_sound hargs hkeywords h
      exact takeProfit?_sound hc hvs hbuild

end Reading

end TradeSignals
