import Mathlib.Data.List.Forall2
import TradeSignals.Proofs.Validation.Sound

/-!
# What the ticker of a strategy is for

An expression is read in a context with the ticker of the strategy. Under two tickers it is
accepted or refused alike, for the same reason, and what comes out is the same series by series.
A series that leaves its ticker to the strategy (`TradeSignals.Expr.LacksTicker`) is read from the
one ticker on the one side and from the other one on the other side; a series that gives a ticker
of its own does not change. Settings do not depend on the ticker at all.

A condition does not show which of its series were left to the strategy, for the ticker that is
filled in may be one that was given as well. So the two conditions are compared along the expression
that they are read from: a series goes with the argument of its parameter
(`TradeSignals.Expr.Gives`), and the conditions of a junction go with the arguments that are
accepted, in order (`TradeSignals.Condition.Refilled`).

All this is one statement about whole readings, `TradeSignals.Reading.refilled_of`, proved by
induction on the expression.
-/

namespace TradeSignals

/-! ### Checks that agree -/

/-- **Two results agree** up to a relation: they are values that are related, or the same
fault. -/
inductive Except.Agree {ε α β : Type} (R : α → β → Prop) : Except ε α → Except ε β → Prop where
  /-- Values that are related. -/
  | ok {a : α} {b : β} (h : R a b) : Except.Agree R (.ok a) (.ok b)
  /-- The same fault. -/
  | error (e : ε) : Except.Agree R (.error e) (.error e)

namespace Verdict

variable {ν μ ε φ α β γ δ : Type} {R : α → β → Prop} {S : γ → δ → Prop}

/-- Two checks agree if their results do; what was noted does not matter. -/
def Agree (R : α → β → Prop) (v : Verdict ν ε α) (w : Verdict μ ε β) : Prop :=
  Except.Agree R v.result w.result

namespace Agree

theorem of_result_eq {v w : Verdict ν ε α} (h : v.result = w.result) : v.Agree Eq w := by
  rw [Agree, h]
  cases w.result with
  | ok a => exact .ok rfl
  | error e => exact .error e

theorem result_eq {v w : Verdict ν ε α} (h : v.Agree Eq w) : v.result = w.result := by
  obtain ⟨vnotes, vresult⟩ := v
  obtain ⟨wnotes, wresult⟩ := w
  cases h with
  | ok h => exact congrArg Except.ok h
  | error e => rfl

theorem mono {v : Verdict ν ε α} {w : Verdict μ ε β} {R' : α → β → Prop} (h : v.Agree R w)
    (hR : ∀ a b, R a b → R' a b) : v.Agree R' w := by
  obtain ⟨vnotes, vresult⟩ := v
  obtain ⟨wnotes, wresult⟩ := w
  cases h with
  | ok h => exact .ok (hR _ _ h)
  | error e => exact .error e

theorem of_ok {v : Verdict ν ε α} {w : Verdict μ ε β} (h : v.Agree R w) {a : α} {b : β}
    (hv : v.result = .ok a) (hw : w.result = .ok b) : R a b := by
  rw [Agree, hv, hw] at h
  cases h with
  | ok h => exact h

/-- Checks in two parts agree if both parts do. -/
theorem bind {v : Verdict ν ε α} {w : Verdict μ ε β} {f : α → Verdict ν ε γ}
    {g : β → Verdict μ ε δ} (h : v.Agree R w) (hfg : ∀ a b, R a b → (f a).Agree S (g b)) :
    (v >>= f).Agree S (w >>= g) := by
  obtain ⟨vnotes, vresult⟩ := v
  obtain ⟨wnotes, wresult⟩ := w
  cases h with
  | ok h => exact hfg _ _ h
  | error e => exact .error e

theorem map {v : Verdict ν ε α} {w : Verdict μ ε β} {f : α → γ} {g : β → δ} (h : v.Agree R w)
    (hfg : ∀ a b, R a b → S (f a) (g b)) : (f <$> v).Agree S (g <$> w) := by
  rw [← bind_pure_comp, ← bind_pure_comp]
  exact h.bind fun a b hab => .ok (hfg a b hab)

/-- What became of a check is known where it is looked at. -/
theorem attempt {v : Verdict ν ε α} {w : Verdict μ ε β} (h : v.Agree R w) :
    v.attempt.Agree (fun x y => x = v.result ∧ Except.Agree R x y) w.attempt :=
  .ok ⟨rfl, h⟩

theorem translate {v : Verdict ν ε α} {w : Verdict μ ε β} (h : v.Agree R w) {ν' μ' : Type}
    (onNote : ν → ν') (onNote' : μ → μ') (onFault : ε → φ) :
    (v.translate onNote onFault).Agree R (w.translate onNote' onFault) := by
  obtain ⟨vnotes, vresult⟩ := v
  obtain ⟨wnotes, wresult⟩ := w
  cases h with
  | ok h => exact .ok h
  | error e => exact .error _

/-- What is noted first does not matter. -/
theorem noteAll_bind {ns : List ν} {ms : List μ} {f : Unit → Verdict ν ε γ}
    {g : Unit → Verdict μ ε δ} (h : (f ()).Agree S (g ())) :
    ((noteAll ns : Verdict ν ε Unit) >>= f).Agree S ((noteAll ms : Verdict μ ε Unit) >>= g) :=
  h

/-- A single note does not matter, either. -/
theorem note_bind {n : ν} {m : μ} {f : Unit → Verdict ν ε γ} {g : Unit → Verdict μ ε δ}
    (h : (f ()).Agree S (g ())) :
    ((note n : Verdict ν ε Unit) >>= f).Agree S ((note m : Verdict μ ε Unit) >>= g) :=
  h

end Agree

end Verdict

open Verdict

/-! ### Options -/

section Options

variable {α β γ δ : Type} {R : α → β → Prop} {S : γ → δ → Prop}

theorem Option.rel_bind {x : Option α} {y : Option β} {f : α → Option γ} {g : β → Option δ}
    (h : Option.Rel R x y) (hfg : ∀ a b, R a b → Option.Rel S (f a) (g b)) :
    Option.Rel S (x >>= f) (y >>= g) := by
  cases h with
  | none => exact .none
  | some h => exact hfg _ _ h

theorem Option.rel_bind_self {x : Option α} {f : α → Option γ} {g : α → Option δ}
    (hfg : ∀ a, Option.Rel S (f a) (g a)) : Option.Rel S (x >>= f) (x >>= g) := by
  cases x with
  | none => exact .none
  | some a => exact hfg a

theorem Option.rel_mono {x : Option α} {y : Option β} {R' : α → β → Prop} (h : Option.Rel R x y)
    (hR : ∀ a b, R a b → R' a b) : Option.Rel R' x y := by
  cases h with
  | none => exact .none
  | some h => exact .some (hR _ _ h)

end Options

/-! ### Arguments -/

/-- **The argument of a parameter.** -/
def Binding.Gives {α : Type} (b : Binding α) (parameter : String) (argument : α) : Prop :=
  ∃ slot, (slot, argument) ∈ b.bound ∧ slot.name = parameter

namespace Expr

/-- **The argument of a parameter** of the constructor that is called. -/
def Gives : Expr → String → Expr → Prop
  | .call callee args keywords, parameter, argument =>
    ∃ c, Constructor.ofName? callee = some c ∧
      (Binding.ofCall c args keywords).Gives parameter argument
  | _, _, _ => False

/-- The argument by which a series gives its ticker. -/
def tickerArgument? (args : List Expr) (keywords : List (String × Expr)) : Option Expr :=
  args.head?.or ((keywords.find? Reading.isTickerKey).map (·.2))

/-- **A series that leaves its ticker to the strategy**: it gives none, or something else in its
place. -/
def LacksTicker : Expr → Prop
  | .call callee args keywords =>
    (∃ c, Constructor.ofName? callee = some c ∧ c.takesTicker = true) ∧
      ∀ e ∈ tickerArgument? args keywords, ∀ t, Plain.ticker e ≠ .ok t
  | _ => False

end Expr

/-- **Is an expression accepted as a condition?** -/
def Condition.IsAccepted (cx : Context) (e : Expr) : Prop := ∃ c, (check cx e).result = .ok c

/-! ### Series and conditions -/

/-- The same series, read from the bars of another ticker. -/
def Series.withTicker (ticker : String) : Series → Series
  | .constant value => .constant value
  | .price _ field => .price ticker field
  | .windowed study _ length => .windowed study ticker length
  | .obv _ => .obv ticker
  | .macd _ fast slow => .macd ticker fast slow
  | .macdSignal _ fast slow signal => .macdSignal ticker fast slow signal
  | .band side _ length deviations => .band side ticker length deviations
  | .retracement _ level length => .retracement ticker level length

theorem Series.withTicker_of_ticker? {ticker : String} {s : Series} (h : s.ticker? = some ticker) :
    s.withTicker ticker = s := by
  cases s <;> cases h <;> rfl

/-- **A series with another ticker filled in**: if it leaves its ticker to the strategy, it is read
from `ticker` on the one side and from `ticker'` on the other; if not, it is the same one. -/
def Series.Refilled (ticker ticker' : String) (e : Expr) (s s' : Series) : Prop :=
  e.LacksTicker ∧ s.ticker? = some ticker ∧ s' = s.withTicker ticker' ∨ ¬e.LacksTicker ∧ s' = s

/-- **What becomes of the elements of a list** on two sides: some of them are dropped, and the
others come to what is related, in order. -/
inductive Kept {α β γ : Type} (dropped : α → Prop) (R : α → β → γ → Prop) :
    List α → List β → List γ → Prop where
  /-- There is nothing. -/
  | nil : Kept dropped R [] [] []
  /-- An element is kept. -/
  | keep {a : α} {b : β} {c : γ} {as : List α} {bs : List β} {cs : List γ} (h : R a b c)
    (hrest : Kept dropped R as bs cs) : Kept dropped R (a :: as) (b :: bs) (c :: cs)
  /-- An element is dropped. -/
  | drop {a : α} {as : List α} {bs : List β} {cs : List γ} (h : dropped a)
    (hrest : Kept dropped R as bs cs) : Kept dropped R (a :: as) bs cs

theorem Kept.length_eq {α β γ : Type} {dropped : α → Prop} {R : α → β → γ → Prop} {as : List α}
    {bs : List β} {cs : List γ} (h : Kept dropped R as bs cs) : bs.length = cs.length := by
  induction h with
  | nil => rfl
  | keep _ _ ih => exact congrArg (· + 1) ih
  | drop _ _ ih => exact ih

/-- **A condition with another ticker filled in**, along the expression that it is read from: it is
the same one but for its series, and each of these is filled in by its own argument. -/
inductive Condition.Refilled (today : Date) (ticker ticker' : String) :
    Expr → Condition → Condition → Prop where
  /-- Both series are filled in. -/
  | comparison (relation : Relation) {e ea eb : Expr} {a a' b b' : Series}
    (hfirst : e.Gives "first_series" ea) (ha : Series.Refilled ticker ticker' ea a a')
    (hsecond : e.Gives "second_series" eb) (hb : Series.Refilled ticker ticker' eb b b') :
    Refilled today ticker ticker' e (.comparison relation a b) (.comparison relation a' b')
  /-- Each of the conditions is filled in; arguments that are refused are left out. -/
  | all {callee : String} {args : List Expr} {keywords : List (String × Expr)}
    {cs cs' : List Condition} (h : Kept (fun e => ¬IsAccepted ⟨ticker, today⟩ e)
      (Refilled today ticker ticker') args cs cs') :
    Refilled today ticker ticker' (.call callee args keywords) (.all cs) (.all cs')
  /-- Each of the conditions is filled in; arguments that are refused are left out. -/
  | any {callee : String} {args : List Expr} {keywords : List (String × Expr)}
    {cs cs' : List Condition} (h : Kept (fun e => ¬IsAccepted ⟨ticker, today⟩ e)
      (Refilled today ticker ticker') args cs cs') :
    Refilled today ticker ticker' (.call callee args keywords) (.any cs) (.any cs')
  /-- The condition that held before is filled in. -/
  | after {e base : Expr} {c c' : Condition} (hbase : e.Gives "base_condition" base)
    (h : Refilled today ticker ticker' base c c') (days : UInt64) :
    Refilled today ticker ticker' e (.after c days) (.after c' days)
  /-- The series is filled in. -/
  | changeOver {e es : Expr} {s s' : Series} (hseries : e.Gives "series" es)
    (h : Series.Refilled ticker ticker' es s s') (percent : Float) (days : UInt64) :
    Refilled today ticker ticker' e (.changeOver s percent days) (.changeOver s' percent days)
  /-- The series is filled in. -/
  | change {e es : Expr} {s s' : Series} (hseries : e.Gives "series" es)
    (h : Series.Refilled ticker ticker' es s s') (percent : Float) :
    Refilled today ticker ticker' e (.change s percent) (.change s' percent)
  /-- The series is filled in. -/
  | trend (direction : Direction) {e es : Expr} {s s' : Series} (hseries : e.Gives "series" es)
    (h : Series.Refilled ticker ticker' es s s') (days : UInt64) :
    Refilled today ticker ticker' e (.trend direction s days) (.trend direction s' days)

variable {today : Date} {ticker ticker' : String}

/-- Where the ticker is the same, the series does not change. -/
theorem Series.Refilled.eq_of_ticker {e : Expr} {s s' : Series}
    (h : Series.Refilled ticker ticker e s s') : s' = s := by
  rcases h with ⟨-, hticker, hs⟩ | ⟨-, hs⟩
  · rw [hs, Series.withTicker_of_ticker? hticker]
  · exact hs

namespace Condition.Refilled

theorem eq_of_kept {dropped : Expr → Prop} {es : List Expr} {cs cs' : List Condition}
    (h : Kept dropped (Refilled today ticker ticker) es cs cs')
    (ih : ∀ c ∈ cs, ∀ {e c'}, Refilled today ticker ticker e c c' → c' = c) : cs' = cs := by
  induction h with
  | nil => rfl
  | keep hc _ ihcs =>
    rw [ih _ List.mem_cons_self hc, ihcs fun c hmem => ih c (List.mem_cons_of_mem _ hmem)]
  | drop _ _ ihcs => exact ihcs ih

/-- Where the ticker is the same, nothing changes. -/
theorem eq_of_ticker {e : Expr} {c c' : Condition} (h : Refilled today ticker ticker e c c') :
    c' = c := by
  induction c using Condition.induct generalizing e c' with
  | comparison relation a b =>
    cases h with
    | comparison _ _ ha _ hb => rw [ha.eq_of_ticker, hb.eq_of_ticker]
  | all cs ih =>
    cases h with
    | all h => rw [eq_of_kept h ih]
  | any cs ih =>
    cases h with
    | any h => rw [eq_of_kept h ih]
  | after c days ih =>
    cases h with
    | after _ h => rw [ih h]
  | changeOver s percent days =>
    cases h with
    | changeOver _ h => rw [h.eq_of_ticker]
  | change s percent =>
    cases h with
    | change _ h => rw [h.eq_of_ticker]
  | trend direction s days =>
    cases h with
    | trend _ _ h => rw [h.eq_of_ticker]

end Condition.Refilled

/-! ### Values -/

/-- **A value that is neither a condition nor a series.** -/
def Value.IsPlain : Value → Prop
  | .condition _ | .series _ => False
  | _ => True

/-- A value with another ticker filled in, along the argument that it is read from. -/
inductive Value.Refilled (today : Date) (ticker ticker' : String) :
    Expr → Value → Value → Prop where
  /-- The condition is filled in. -/
  | condition {e : Expr} {c c' : Condition} (h : Condition.Refilled today ticker ticker' e c c') :
    Refilled today ticker ticker' e (.condition c) (.condition c')
  /-- The series is filled in. -/
  | series {e : Expr} {s s' : Series} (h : Series.Refilled ticker ticker' e s s') :
    Refilled today ticker ticker' e (.series s) (.series s')
  /-- There is nothing to fill in. -/
  | plain {e : Expr} {v : Value} (h : v.IsPlain) : Refilled today ticker ticker' e v v

/-- Values of parameters with another ticker filled in, each along its own argument. -/
def Values.Refilled (today : Date) (ticker ticker' : String) (b : Binding Expr) :
    Values → Values → Prop :=
  List.Forall₂ fun p p' => p.1 = p'.1 ∧
    ∃ e, b.Gives p.1 e ∧ Value.Refilled today ticker ticker' e p.2 p'.2

namespace Values.Refilled

variable {b : Binding Expr} {vs vs' : Values}

/-- What is found for a parameter: the same, which is neither a condition nor a series, or
conditions or series in which another ticker is filled in. -/
theorem lookup_cases (h : Values.Refilled today ticker ticker' b vs vs') (key : String) :
    (vs.lookup key = vs'.lookup key ∧ ∀ v, vs.lookup key = some v → v.IsPlain) ∨
      (∃ e c c', b.Gives key e ∧ vs.lookup key = some (.condition c) ∧
        vs'.lookup key = some (.condition c') ∧ Condition.Refilled today ticker ticker' e c c') ∨
      ∃ e s s', b.Gives key e ∧ vs.lookup key = some (.series s) ∧
        vs'.lookup key = some (.series s') ∧ Series.Refilled ticker ticker' e s s' := by
  induction h with
  | nil =>
    refine .inl ⟨rfl, fun v hnone => ?_⟩
    cases hnone
  | @cons p p' vs vs' hp _ ih =>
    obtain ⟨name, v⟩ := p
    obtain ⟨_, v'⟩ := p'
    obtain ⟨rfl, e, hgives, hv⟩ := hp
    rw [List.lookup_cons, List.lookup_cons]
    dsimp only
    split
    next hkey =>
      obtain rfl := eq_of_beq hkey
      cases hv with
      | condition hc => exact .inr (.inl ⟨e, _, _, hgives, rfl, rfl, hc⟩)
      | series hs => exact .inr (.inr ⟨e, _, _, hgives, rfl, rfl, hs⟩)
      | plain hplain => exact .inl ⟨rfl, fun _ h => Option.some.inj h ▸ hplain⟩
    next => exact ih

/-- A parameter that takes neither a condition nor a series comes to the same. -/
theorem plain (h : Values.Refilled today ticker ticker' b vs vs') (key : String) :
    vs.int? key = vs'.int? key ∧ vs.float? key = vs'.float? key ∧
      vs.priceField? key = vs'.priceField? key ∧ vs.stopKind? key = vs'.stopKind? key ∧
      vs.retracement? key = vs'.retracement? key := by
  simp only [int?, float?, priceField?, stopKind?, retracement?]
  obtain ⟨h, -⟩ | ⟨_, c, c', -, h, h', -⟩ | ⟨_, s, s', -, h, h', -⟩ := h.lookup_cases key
  · rw [h]
    exact ⟨rfl, rfl, rfl, rfl, rfl⟩
  · rw [h, h']
    exact ⟨rfl, rfl, rfl, rfl, rfl⟩
  · rw [h, h']
    exact ⟨rfl, rfl, rfl, rfl, rfl⟩

theorem length?_eq (h : Values.Refilled today ticker ticker' b vs vs') (key : String) :
    vs.length? key = vs'.length? key := by
  rw [length?, length?, (h.plain key).1]

theorem series? (h : Values.Refilled today ticker ticker' b vs vs') (key : String) :
    Option.Rel (fun s s' => ∃ e, b.Gives key e ∧ Series.Refilled ticker ticker' e s s')
      (vs.series? key) (vs'.series? key) := by
  rw [Values.series?, Values.series?]
  obtain ⟨h, hplain⟩ | ⟨_, c, c', -, h, h', -⟩ | ⟨e, s, s', hgives, h, h', hs⟩ :=
    h.lookup_cases key
  · rw [← h]
    split
    next hfound => exact (hplain _ hfound).elim
    next => exact .none
  · rw [h, h']
    exact .none
  · rw [h, h']
    exact .some ⟨e, hgives, hs⟩

theorem condition? (h : Values.Refilled today ticker ticker' b vs vs') (key : String) :
    Option.Rel
      (fun c c' => ∃ e, b.Gives key e ∧ Condition.Refilled today ticker ticker' e c c')
      (vs.condition? key) (vs'.condition? key) := by
  rw [Values.condition?, Values.condition?]
  obtain ⟨h, hplain⟩ | ⟨e, c, c', hgives, h, h', hc⟩ | ⟨_, s, s', -, h, h', -⟩ :=
    h.lookup_cases key
  · rw [← h]
    split
    next hfound => exact (hplain _ hfound).elim
    next => exact .none
  · rw [h, h']
    exact .some ⟨e, hgives, hc⟩
  · rw [h, h']
    exact .none

theorem withoutValue_eq (h : Values.Refilled today ticker ticker' b vs vs') (c : Constructor) :
    Reading.withoutValue c vs = Reading.withoutValue c vs' := by
  refine List.filter_congr fun key _ => ?_
  obtain ⟨h, -⟩ | ⟨_, _, _, -, h, h', -⟩ | ⟨_, _, _, -, h, h', -⟩ := h.lookup_cases key
  · rw [h]
  · rw [h, h', Option.isNone_some, Option.isNone_some]
  · rw [h, h', Option.isNone_some, Option.isNone_some]

end Values.Refilled

/-! ### Binding -/

namespace Binding

variable {α β : Type}

/-- A binding with its arguments seen in another way. -/
def map (f : α → β) (b : Binding α) : Binding β :=
  ⟨b.bound.map fun p => (p.1, f p.2), b.problems.map (.map f)⟩

theorem binds_map (f : α → β) (b : Binding α) (parameter : String) :
    (b.map f).binds parameter = b.binds parameter := by
  rw [binds, map, List.any_map]
  rfl

theorem positional_map (f : α → β) (n : ℕ) (slots : List Slot) (args : List α) :
    positional n slots (args.map f) = (positional n slots args).map f := by
  fun_induction positional n slots args with
  | case1 n slots => cases slots <;> rfl
  | case2 n a rest b ih => rw [List.map_cons, positional, ih]; rfl
  | case3 n slot slots a rest b ih => rw [List.map_cons, positional, ih]; rfl

theorem keyword_map (f : α → β) (c : Constructor) (b : Binding α) (k : String × α) :
    keyword c (b.map f) (k.1, f k.2) = (keyword c b k).map f := by
  unfold keyword
  dsimp only
  split
  · rw [map, map, List.map_append]
    rfl
  · rw [binds_map]
    split
    · rw [map, map, List.map_append]
      rfl
    · rw [map, map, List.map_append]
      rfl

/-- **Binding looks at keywords only**, not at arguments. -/
theorem ofCall_map (f : α → β) (c : Constructor) (args : List α) (ks : List (String × α)) :
    ofCall c (args.map f) (ks.map fun k => (k.1, f k.2)) = (ofCall c args ks).map f := by
  rw [ofCall, ofCall, positional_map, List.foldl_map]
  generalize positional 0 c.slots args = b
  induction ks generalizing b with
  | nil => rfl
  | cons k ks ih => rw [List.foldl_cons, List.foldl_cons, keyword_map, ih]

theorem missing_map (f : α → β) (c : Constructor) (b : Binding α) :
    (b.map f).missing c = b.missing c := by
  simp only [missing, binds_map]

end Binding

/-! ### Readings -/

/-- **A reading of an expression with another ticker filled in.** As a setting, the expression is
read as before. -/
structure Reading.Refilled (today : Date) (ticker ticker' : String) (e : Expr) (r r' : Reading) :
    Prop where
  /-- The expression is the same. -/
  expr : r.expr = r'.expr
  /-- As a condition. -/
  condition : r.condition.Agree (Condition.Refilled today ticker ticker' e) r'.condition
  /-- As a series. -/
  series : r.series.Agree (Series.Refilled ticker ticker' e) r'.series
  /-- As an order size. -/
  orderSize : r.orderSize.Agree Eq r'.orderSize
  /-- As a commission or none. -/
  commission : r.commission.Agree Eq r'.commission
  /-- As a stop loss or none. -/
  stopLoss : r.stopLoss.Agree Eq r'.stopLoss
  /-- As a take profit or none. -/
  takeProfit : r.takeProfit.Agree Eq r'.takeProfit

/-- An expression is read alike under two tickers. -/
def Expr.ReadsAlike (today : Date) (ticker ticker' : String) (e : Expr) : Prop :=
  (Reading.of ⟨ticker, today⟩ e).Refilled today ticker ticker' e (Reading.of ⟨ticker', today⟩ e)

namespace Reading

variable {e : Expr} {r r' : Reading} {c : Constructor} {b : Binding Expr} {vs vs' : Values}

/-! ### Parameters -/

/-- What takes neither a condition nor a series makes the same of both readings, and it is neither
of them. -/
theorem value_agree (h : r.Refilled today ticker ticker' e r') {tag : Tag}
    (hcondition : tag ≠ .condition) (hseries : tag ≠ .series) :
    (r.value ⟨ticker, today⟩ tag).Agree (fun v v' => v = v' ∧ v.IsPlain)
      (r'.value ⟨ticker', today⟩ tag) := by
  have hsetting : ∀ {α : Type} {v w : Check α} {toValue : α → Value},
      (∀ a, (toValue a).IsPlain) → v.Agree Eq w →
      (toValue <$> v).Agree (fun v v' => v = v' ∧ v.IsPlain) (toValue <$> w) := by
    intro α v w toValue hplain hvw
    exact hvw.map fun a b hab => ⟨congrArg toValue hab, hplain a⟩
  have hliteral : ∀ {α : Type} {toValue : α → Value} (x : Except Fault α),
      (∀ a, (toValue a).IsPlain) → (Verdict.ofResult (toValue <$> x) : Check Value).Agree
        (fun v v' => v = v' ∧ v.IsPlain) (Verdict.ofResult (toValue <$> x) : Check Value) := by
    intro α toValue x hplain
    cases x with
    | error fault => exact .error fault
    | ok a => exact .ok ⟨rfl, hplain a⟩
  cases tag with
  | condition => exact absurd rfl hcondition
  | series => exact absurd rfl hseries
  | orderSize => exact hsetting (fun _ => trivial) h.orderSize
  | commission => exact hsetting (fun _ => trivial) h.commission
  | stopLoss => exact hsetting (fun _ => trivial) h.stopLoss
  | takeProfit => exact hsetting (fun _ => trivial) h.takeProfit
  | choice kind =>
    rw [value, value, h.expr]
    cases kind <;> exact hliteral _ fun _ => trivial
  | _ =>
    rw [value, value, h.expr]
    exact hliteral _ fun _ => trivial

theorem value_refilled (h : r.Refilled today ticker ticker' e r') (tag : Tag) :
    (r.value ⟨ticker, today⟩ tag).Agree (Value.Refilled today ticker ticker' e)
      (r'.value ⟨ticker', today⟩ tag) := by
  by_cases hcondition : tag = .condition
  · subst hcondition
    exact h.condition.map fun _ _ => .condition
  · by_cases hseries : tag = .series
    · subst hseries
      exact h.series.map fun _ _ => .series
    · exact (value_agree h hcondition hseries).mono fun v _ hv => hv.1 ▸ .plain hv.2

/-- **A parameter** comes to the same, with the other ticker filled in. -/
theorem parameter_refilled (h : r.Refilled today ticker ticker' e r') (owner : Option Constructor)
    (slot : Slot) :
    (r.parameter ⟨ticker, today⟩ owner slot).Agree (Value.Refilled today ticker ticker' e)
      (r'.parameter ⟨ticker', today⟩ owner slot) := by
  refine (value_refilled h slot.tag).bind fun v v' hv => ?_
  have hrange : v.outOfRange? owner slot.name = v'.outOfRange? owner slot.name := by
    cases hv <;> rfl
  rw [hrange]
  split
  · exact .error _
  · exact .ok hv

/-- **A parameter that is a setting** comes to the same. -/
theorem parameter_agree (h : r.Refilled today ticker ticker' e r') (owner : Option Constructor)
    {slot : Slot} (hcondition : slot.tag ≠ .condition) (hseries : slot.tag ≠ .series) :
    (r.parameter ⟨ticker, today⟩ owner slot).Agree Eq
      (r'.parameter ⟨ticker', today⟩ owner slot) := by
  refine (value_agree h hcondition hseries).bind ?_
  rintro v _ ⟨rfl, -⟩
  exact .of_result_eq rfl

/-! ### Values of calls -/

section Calls

variable {bound : List (Slot × Expr)} {callee : String} {args : List Expr}
  {ks : List (String × Expr)}

theorem usableValues_refilled (c : Constructor)
    (h : ∀ p ∈ bound, p.2.ReadsAlike today ticker ticker' ∧ b.Gives p.1.name p.2) :
    (usableValues ⟨ticker, today⟩ c (bound.map fun p => (p.1, of ⟨ticker, today⟩ p.2))).Agree
      (Values.Refilled today ticker ticker' b)
      (usableValues ⟨ticker', today⟩ c (bound.map fun p => (p.1, of ⟨ticker', today⟩ p.2))) := by
  induction bound with
  | nil => exact .ok .nil
  | cons p bound ih =>
    obtain ⟨hp, hgives⟩ := h p List.mem_cons_self
    have hrest := ih fun q hq => h q (List.mem_cons_of_mem _ hq)
    refine (parameter_refilled hp (some c) p.1).attempt.bind ?_
    rintro x x' ⟨-, hx⟩
    cases hx with
    | ok hv => exact hrest.bind fun vs vs' hvs => .ok (.cons ⟨rfl, _, hgives, hv⟩ hvs)
    | error fault => exact .note_bind hrest

theorem allValues_refilled (c : Constructor)
    (h : ∀ p ∈ bound, p.2.ReadsAlike today ticker ticker' ∧ b.Gives p.1.name p.2) :
    (allValues ⟨ticker, today⟩ c (bound.map fun p => (p.1, of ⟨ticker, today⟩ p.2))).Agree
      (Values.Refilled today ticker ticker' b)
      (allValues ⟨ticker', today⟩ c (bound.map fun p => (p.1, of ⟨ticker', today⟩ p.2))) := by
  induction bound with
  | nil => exact .ok .nil
  | cons p bound ih =>
    obtain ⟨hp, hgives⟩ := h p List.mem_cons_self
    refine ((parameter_refilled hp (some c) p.1).translate _ _ _).bind fun v v' hv => ?_
    exact (ih fun q hq => h q (List.mem_cons_of_mem _ hq)).bind
      fun vs vs' hvs => .ok (.cons ⟨rfl, _, hgives, hv⟩ hvs)

/-- What is bound in a call is one of its arguments. -/
theorem readsAlike_bound (hargs : ∀ e ∈ args, e.ReadsAlike today ticker ticker')
    (hks : ∀ ke ∈ ks, ke.2.ReadsAlike today ticker ticker') :
    ∀ p ∈ (Binding.ofCall c args ks).bound, p.2.ReadsAlike today ticker ticker' ∧
      (Binding.ofCall c args ks).Gives p.1.name p.2 := by
  intro p hp
  refine ⟨?_, p.1, hp, rfl⟩
  rcases Binding.mem_bound_ofCall p hp with h | ⟨k, hk, h⟩
  · exact hargs _ h
  · exact h ▸ hks k hk

theorem callValues_refilled (c : Constructor)
    (hargs : ∀ e ∈ args, e.ReadsAlike today ticker ticker')
    (hks : ∀ ke ∈ ks, ke.2.ReadsAlike today ticker ticker') :
    (callValues ⟨ticker, today⟩ c (args.map (of ⟨ticker, today⟩))
      (ks.map fun ke => (ke.1, of ⟨ticker, today⟩ ke.2))).Agree
      (Values.Refilled today ticker ticker' (Binding.ofCall c args ks))
      (callValues ⟨ticker', today⟩ c (args.map (of ⟨ticker', today⟩))
        (ks.map fun ke => (ke.1, of ⟨ticker', today⟩ ke.2))) := by
  rw [callValues, callValues, Binding.ofCall_map, Binding.ofCall_map]
  exact .noteAll_bind (usableValues_refilled c (readsAlike_bound hargs hks))

/-- What is built from values, if both sides build what is related or nothing. -/
theorem built_refilled {α β : Type} {R : α → β → Prop} {x : Option α} {y : Option β}
    (hvs : Values.Refilled today ticker ticker' b vs vs') (h : Option.Rel R x y) :
    (built c vs x).Agree R (built c vs' y) := by
  cases h with
  | none =>
    rw [built, built, hvs.withoutValue_eq]
    exact .error _
  | some h => exact .ok h

theorem resolve_agree (wanted : Category) (name : String) :
    (resolve wanted name).Agree (fun c c' => c = c' ∧ Constructor.ofName? name = some c)
      (resolve wanted name) := by
  unfold resolve
  split
  · next c hc =>
    split
    · exact .ok ⟨rfl, hc⟩
    · exact .error _
  · exact .error _

/-! ### Conditions -/

/-- What is built from values is read along the call that gives them. -/
theorem comparison?_refilled (relation : Relation)
    (hgives : ∀ {parameter argument}, b.Gives parameter argument → e.Gives parameter argument)
    (h : Values.Refilled today ticker ticker' b vs vs') :
    Option.Rel (Condition.Refilled today ticker ticker' e) (comparison? relation vs)
      (comparison? relation vs') :=
  Option.rel_bind (h.series? _) fun _ _ ⟨_, hfirst, ha⟩ =>
    Option.rel_bind (h.series? _) fun _ _ ⟨_, hsecond, hb⟩ =>
      .some (.comparison relation (hgives hfirst) ha (hgives hsecond) hb)

theorem trend?_refilled (direction : Direction)
    (hgives : ∀ {parameter argument}, b.Gives parameter argument → e.Gives parameter argument)
    (h : Values.Refilled today ticker ticker' b vs vs') :
    Option.Rel (Condition.Refilled today ticker ticker' e) (trend? direction vs)
      (trend? direction vs') := by
  refine Option.rel_bind (h.series? _) fun _ _ ⟨_, hseries, hs⟩ => ?_
  rw [h.length?_eq]
  exact Option.rel_bind_self fun days => .some (.trend direction (hgives hseries) hs days)

/-- What a constructor builds from values: the same, with the other ticker filled in. -/
theorem condition?_refilled (c : Constructor)
    (hgives : ∀ {parameter argument}, b.Gives parameter argument → e.Gives parameter argument)
    (h : Values.Refilled today ticker ticker' b vs vs') :
    Option.Rel (Condition.Refilled today ticker ticker' e) (condition? c vs)
      (condition? c vs') := by
  cases c with
  | greaterThan | lessThan | crossOver | crossUnder => exact comparison?_refilled _ hgives h
  | uptrend | downtrend => exact trend?_refilled _ hgives h
  | afterDays =>
    refine Option.rel_bind (h.condition? _) fun _ _ ⟨_, hbase, hc⟩ => ?_
    rw [h.length?_eq]
    exact Option.rel_bind_self fun days => .some (.after (hgives hbase) hc days)
  | changePerDays =>
    refine Option.rel_bind (h.series? _) fun _ _ ⟨_, hseries, hs⟩ => ?_
    rw [(h.plain _).2.1, h.length?_eq]
    exact Option.rel_bind_self fun percent => Option.rel_bind_self fun days =>
      .some (.changeOver (hgives hseries) hs percent days)
  | changePerBar =>
    refine Option.rel_bind (h.series? _) fun _ _ ⟨_, hseries, hs⟩ => ?_
    rw [(h.plain _).2.1]
    exact Option.rel_bind_self fun percent => .some (.change (hgives hseries) hs percent)
  | _ => exact .none

/-- **The conditions of a junction** are those of its arguments that are accepted. -/
theorem usableConditions_refilled (c : Constructor) (n : ℕ)
    (hargs : ∀ e ∈ args, e.ReadsAlike today ticker ticker') :
    (usableConditions c n (args.map (of ⟨ticker, today⟩))).Agree
      (Kept (fun e => ¬Condition.IsAccepted ⟨ticker, today⟩ e)
        (Condition.Refilled today ticker ticker') args)
      (usableConditions c n (args.map (of ⟨ticker', today⟩))) := by
  induction args generalizing n with
  | nil => exact .ok .nil
  | cons e args ih =>
    have hrest := ih (n + 1) fun e he => hargs e (List.mem_cons_of_mem _ he)
    refine (hargs e List.mem_cons_self).condition.attempt.bind ?_
    rintro x x' ⟨hresult, hx⟩
    cases hx with
    | ok hc => exact hrest.bind fun cs cs' hcs => .ok (.keep hc hcs)
    | error fault =>
      have hrefused : ¬Condition.IsAccepted ⟨ticker, today⟩ e := by
        rintro ⟨c, hc⟩
        cases hresult.trans hc
      exact .note_bind (hrest.mono fun _ _ => .drop hrefused)

theorem conditionOfCall_refilled (callee : String)
    (hargs : ∀ e ∈ args, e.ReadsAlike today ticker ticker')
    (hks : ∀ ke ∈ ks, ke.2.ReadsAlike today ticker ticker') :
    (conditionOfCall ⟨ticker, today⟩ callee (args.map (of ⟨ticker, today⟩))
      (ks.map fun ke => (ke.1, of ⟨ticker, today⟩ ke.2))).Agree
      (Condition.Refilled today ticker ticker' (.call callee args ks))
      (conditionOfCall ⟨ticker', today⟩ callee (args.map (of ⟨ticker', today⟩))
        (ks.map fun ke => (ke.1, of ⟨ticker', today⟩ ke.2))) := by
  refine (resolve_agree _ _).bind ?_
  rintro c _ ⟨rfl, hc⟩
  split
  · refine .noteAll_bind ((usableConditions_refilled c 0 hargs).bind fun cs cs' hcs => ?_)
    have hlength := hcs.length_eq
    rcases cs with _ | ⟨first, rest⟩ <;> rcases cs' with _ | ⟨first', rest'⟩
    · exact .error _
    · cases hlength
    · cases hlength
    · refine .ok ?_
      split
      · exact .all hcs
      · exact .any hcs
  · exact (callValues_refilled c hargs hks).bind fun vs vs' hvs =>
      built_refilled hvs (condition?_refilled c (fun hgives => ⟨c, hc, hgives⟩) hvs)

/-! ### Series -/

theorem series?_congr (c : Constructor) (t : String)
    (h : Values.Refilled today ticker ticker' b vs vs') : series? c t vs = series? c t vs' := by
  cases c <;> simp only [series?, windowed?, band?, h.length?_eq, h.plain]

/-- What is built for one ticker is built for another one, too, and read from that. -/
theorem series?_withTicker (c : Constructor) (t t' : String) (vs : Values) :
    Option.Rel (fun s s' => s.ticker? = some t ∧ s' = s.withTicker t') (series? c t vs)
      (series? c t' vs) := by
  cases c with
  | price | sma | ema | wma | rsi | roc | stddev | atr =>
    exact Option.rel_bind_self fun _ => .some ⟨rfl, rfl⟩
  | macd | upperBand | lowerBand | retracement =>
    exact Option.rel_bind_self fun _ => Option.rel_bind_self fun _ => .some ⟨rfl, rfl⟩
  | macdSignal =>
    exact Option.rel_bind_self fun _ => Option.rel_bind_self fun _ => Option.rel_bind_self fun _ =>
      .some ⟨rfl, rfl⟩
  | obv => exact .some ⟨rfl, rfl⟩
  | _ => exact .none

/-- How the tickers of a series stand to each other under two tickers of the strategy: they are
those of the strategy if the series lacks one, and the same if not. -/
def TickerRefilled (lacks : Prop) (ticker ticker' t t' : String) : Prop :=
  lacks ∧ t = ticker ∧ t' = ticker' ∨ ¬lacks ∧ t' = t

theorem series?_refilled (c : Constructor) (hvs : Values.Refilled today ticker ticker' b vs vs')
    {t t' : String} (ht : TickerRefilled e.LacksTicker ticker ticker' t t') :
    Option.Rel (Series.Refilled ticker ticker' e) (series? c t vs) (series? c t' vs') := by
  rw [series?_congr c t hvs]
  rcases ht with ⟨hlacks, rfl, rfl⟩ | ⟨hgiven, rfl⟩
  · exact Option.rel_mono (series?_withTicker c t t' vs') fun _ _ hs => .inl ⟨hlacks, hs⟩
  · rcases series? c t' vs' with _ | s
    · exact .none
    · exact .some (.inr ⟨hgiven, rfl⟩)

theorem tickerArguments_map (cx : Context) (args : List Expr) (ks : List (String × Expr)) :
    tickerArguments (args.map (of cx)) (ks.map fun ke => (ke.1, of cx ke.2)) =
      (args.take 1 ++ (ks.filter isTickerKey).map (·.2)).map (of cx) := by
  rw [tickerArguments, List.filter_map, List.map_map, List.map_append, List.map_map,
    List.map_take]
  rfl

/-- The first one of the arguments that give the ticker counts. -/
theorem head?_tickerArguments (args : List Expr) (ks : List (String × Expr)) :
    (args.take 1 ++ (ks.filter isTickerKey).map (·.2)).head? = Expr.tickerArgument? args ks := by
  rw [List.head?_append, List.head?_map, List.head?_filter, List.head?_take]
  rfl

/-- A call of a series with a ticker lacks it if its arguments give none. -/
theorem lacksTicker_call_iff (hc : Constructor.ofName? callee = some c)
    (htakes : c.takesTicker = true) : (Expr.call callee args ks).LacksTicker ↔
      ∀ e ∈ (args.take 1 ++ (ks.filter isTickerKey).map (·.2)).head?, ∀ t,
        Plain.ticker e ≠ .ok t := by
  rw [head?_tickerArguments]
  exact ⟨And.right, fun h => ⟨⟨c, hc, htakes⟩, h⟩⟩

theorem seriesTicker_refilled (c : Constructor) {given : List Expr} {lacks : Prop}
    (hlacks : lacks ↔ ∀ e ∈ given.head?, ∀ t, Plain.ticker e ≠ .ok t) :
    (seriesTicker ⟨ticker, today⟩ c (given.map (of ⟨ticker, today⟩))).Agree
      (TickerRefilled lacks ticker ticker')
      (seriesTicker ⟨ticker', today⟩ c (given.map (of ⟨ticker', today⟩))) := by
  refine .noteAll_bind ?_
  rcases given with _ | ⟨e, rest⟩
  · exact .ok (.inl ⟨hlacks.2 fun _ he => (nomatch he), rfl, rfl⟩)
  · rw [List.map_cons, List.map_cons]
    dsimp only
    rw [expr_of, expr_of]
    rcases hplain : Plain.ticker e with fault | t
    · refine .note_bind (.ok (.inl ⟨hlacks.2 ?_, rfl, rfl⟩))
      rintro _ ⟨⟩ t ht
      rw [hplain] at ht
      cases ht
    · exact .ok (.inr ⟨fun h => hlacks.1 h e rfl t hplain, rfl⟩)

theorem seriesOfCall_refilled (callee : String)
    (hargs : ∀ e ∈ args, e.ReadsAlike today ticker ticker')
    (hks : ∀ ke ∈ ks, ke.2.ReadsAlike today ticker ticker') :
    (seriesOfCall ⟨ticker, today⟩ callee (args.map (of ⟨ticker, today⟩))
      (ks.map fun ke => (ke.1, of ⟨ticker, today⟩ ke.2))).Agree
      (Series.Refilled ticker ticker' (.call callee args ks))
      (seriesOfCall ⟨ticker', today⟩ callee (args.map (of ⟨ticker', today⟩))
        (ks.map fun ke => (ke.1, of ⟨ticker', today⟩ ke.2))) := by
  refine (resolve_agree _ _).bind ?_
  rintro c _ ⟨rfl, hc⟩
  split
  · next htakes =>
    rw [tickerArguments_map, tickerArguments_map]
    refine (seriesTicker_refilled c (lacksTicker_call_iff hc htakes)).bind fun t t' ht => ?_
    rw [← List.map_drop, ← List.map_drop, List.filter_map, List.filter_map]
    have hdrop : ∀ e ∈ args.drop 1, e.ReadsAlike today ticker ticker' := fun e he =>
      hargs e (List.mem_of_mem_drop he)
    have hfilter : ∀ ke ∈ ks.filter fun k => !isTickerKey k,
        ke.2.ReadsAlike today ticker ticker' := fun ke hke =>
      hks ke (List.mem_of_mem_filter hke)
    exact (callValues_refilled c hdrop hfilter).bind fun vs vs' hvs =>
      built_refilled hvs (series?_refilled c hvs ht)
  · next htakes =>
    refine (callValues_refilled c hargs hks).bind fun vs vs' hvs => built_refilled hvs ?_
    rw [(hvs.plain _).1]
    rcases vs'.int? "value" with _ | v
    · exact .none
    · refine .some (.inr ⟨?_, rfl⟩)
      rintro ⟨⟨other, hother, htakes'⟩, -⟩
      obtain rfl := Option.some.inj (hc.symm.trans hother)
      exact htakes htakes'

/-! ### Settings -/

theorem map_expr_of (cx : Context) (problem : BindingProblem Expr) :
    (problem.map (of cx)).map (·.expr) = problem := by
  cases problem with
  | surplus index e => exact congrArg (BindingProblem.surplus index) (expr_of cx e)
  | _ => rfl

/-- **A call is read as the same setting**, whatever the ticker, if no value that it is built from
is a condition or a series. -/
theorem settingOfCall_refilled {α : Type} (category : Category)
    {build? : Constructor → Values → Option α} (callee : String)
    (hbuild : ∀ c b vs vs', Values.Refilled today ticker ticker' b vs vs' →
      build? c vs = build? c vs')
    (hargs : ∀ e ∈ args, e.ReadsAlike today ticker ticker')
    (hks : ∀ ke ∈ ks, ke.2.ReadsAlike today ticker ticker') :
    (settingOfCall ⟨ticker, today⟩ category build? callee (args.map (of ⟨ticker, today⟩))
      (ks.map fun ke => (ke.1, of ⟨ticker, today⟩ ke.2))).Agree Eq
      (settingOfCall ⟨ticker', today⟩ category build? callee (args.map (of ⟨ticker', today⟩))
        (ks.map fun ke => (ke.1, of ⟨ticker', today⟩ ke.2))) := by
  rw [settingOfCall, settingOfCall]
  split
  · exact .error _
  · next c hc =>
    dsimp only
    rw [Binding.ofCall_map, Binding.ofCall_map, Binding.missing_map, Binding.missing_map]
    have hbound := readsAlike_bound hargs hks (c := c)
    generalize Binding.ofCall c args ks = binding at hbound ⊢
    obtain ⟨bound, problems⟩ := binding
    rcases problems with _ | ⟨problem, problems⟩
    · simp only [Binding.map, List.map_nil]
      split
      · exact .error _
      · refine (allValues_refilled c hbound).bind fun vs vs' hvs => ?_
        rw [hbuild c _ vs vs' hvs, hvs.withoutValue_eq]
        split
        · exact .ok rfl
        · exact .error _
    · simp only [Binding.map, List.map_cons]
      rw [map_expr_of, map_expr_of]
      exact .error _

end Calls

/-! ### Expressions -/

/-- What is not a call is no condition and no series, and is the same as a setting. -/
theorem refilled_ofOther (e : Expr) :
    (ofOther e).Refilled today ticker ticker' e (ofOther e) where
  expr := rfl
  condition := .error _
  series := .error _
  orderSize := .of_result_eq rfl
  commission := .of_result_eq rfl
  stopLoss := .of_result_eq rfl
  takeProfit := .of_result_eq rfl

/-- **Every expression is read alike under two tickers.** -/
theorem refilled_of (today : Date) (ticker ticker' : String) (e : Expr) :
    e.ReadsAlike today ticker ticker' := by
  induction e using Expr.induct with
  | literal | member | name => exact refilled_ofOther _
  | call callee args ks hargs hks =>
    rw [Expr.ReadsAlike, of_call, of_call]
    exact
      { expr := rfl
        condition := conditionOfCall_refilled callee hargs hks
        series := seriesOfCall_refilled callee hargs hks
        orderSize := settingOfCall_refilled _ callee
          (fun c b vs vs' hvs => by simp only [orderSize?, hvs.plain]) hargs hks
        commission := settingOfCall_refilled _ callee
          (fun c b vs vs' hvs => by simp only [commission?, hvs.plain]) hargs hks
        stopLoss := settingOfCall_refilled _ callee
          (fun c b vs vs' hvs => by simp only [stopLoss?, hvs.plain]) hargs hks
        takeProfit := settingOfCall_refilled _ callee
          (fun c b vs vs' hvs => by simp only [takeProfit?, hvs.plain]) hargs hks }

end Reading

/-- **A condition under two tickers** is accepted or refused alike, and it is the same but for the
ticker that is filled in where a series gives none. -/
theorem Condition.check_refilled (e : Expr) (ticker ticker' : String) (today : Date) :
    (check ⟨ticker, today⟩ e).Agree (Condition.Refilled today ticker ticker' e)
      (check ⟨ticker', today⟩ e) :=
  (Reading.refilled_of today ticker ticker' e).condition

/-- It does not depend on the ticker of the strategy whether a condition is accepted. -/
theorem Condition.IsAccepted.of_ticker {e : Expr} {ticker : String} {today : Date}
    (h : IsAccepted ⟨ticker, today⟩ e) (ticker' : String) : IsAccepted ⟨ticker', today⟩ e := by
  obtain ⟨c, hc⟩ := h
  have hagree := check_refilled e ticker ticker' today
  rw [Verdict.Agree, hc] at hagree
  generalize hresult : (check ⟨ticker', today⟩ e).result = result at hagree
  cases hagree with
  | ok _ => exact ⟨_, hresult⟩

end TradeSignals
