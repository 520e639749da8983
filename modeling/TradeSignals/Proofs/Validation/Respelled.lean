import TradeSignals.Proofs.Strategy.Respelling
import TradeSignals.Proofs.Validation.KeywordsAlike

/-!
# Spelling does not matter

Validation does not depend on how arguments are spelled. If one text is respelled as another one, as
`TradeSignals.Expr.Respelled` has it, then both are accepted or neither is; they come to the same
strategy and the same canonical text; and what is recorded is recorded under the same keys
(`TradeSignals.validate_respelled`).

It is enough to look at one step. An argument that is spelled in another way is read alike
(`TradeSignals.Expr.Respelling.readAlike`), since arguments that are given by name are bound as they
are by position (`TradeSignals.Binding.ofCall_named`), and since the order of keywords does not
matter. The strategy itself is put together from what its keywords come to, whatever their order
(`TradeSignals.Strategy.checkKeywords_alike`).
-/

namespace TradeSignals

/-! ### Arguments by name -/

namespace Constructor

variable {α β : Type} {c : Constructor}

theorem named_nil (c : Constructor) (ks : List (String × α)) : c.named [] ks = ks := by
  rw [named, List.zip_nil_right, List.nil_append]

/-- The first argument of a series is its ticker. -/
theorem named_cons (h : c.takesTicker = true) (a : α) (args : List α) (ks : List (String × α)) :
    c.named (a :: args) ks = (tickerSlot.name, a) :: ((c.slots.map (·.name)).zip args ++ ks) := by
  rw [named, parameters_of_takesTicker h]
  rfl

theorem named_map (f : α → β) (c : Constructor) (args : List α) (ks : List (String × α)) :
    c.named (args.map f) (ks.map fun k => (k.1, f k.2)) =
      (c.named args ks).map fun k => (k.1, f k.2) := by
  rw [named, named, List.map_append, List.zip_map_right]
  rfl

end Constructor

namespace Binding

variable {α : Type} {c : Constructor} {args : List α}

/-- Arguments by position go to the parameters in order, if there are not too many. -/
theorem positional_eq_zip {slots : List Slot} (h : args.length ≤ slots.length) (n : ℕ) :
    positional n slots args = ⟨slots.zip args, []⟩ := by
  rw [positional_eq, List.drop_eq_nil_of_le h]
  rfl

theorem ofCall_zip (h : args.length ≤ c.slots.length) (ks : List (String × α)) :
    ofCall c [] ((c.slots.map (·.name)).zip args ++ ks) = ofCall c args ks := by
  have hslots := sublist_positional 0 c.slots args
  rw [positional_eq_zip h] at hslots
  have hfirst := ofCall_keywords hslots
  rw [ofCall] at hfirst
  rw [ofCall, ofCall, List.foldl_append, List.zip_map_left, positional_eq_zip h]
  exact congrArg (ks.foldl (keyword c)) hfirst

/-- **Arguments that are given by name** are bound as they are by position. -/
theorem ofCall_named (hticker : c.takesTicker = false) (h : args.length ≤ c.parameters.length)
    (ks : List (String × α)) : ofCall c [] (c.named args ks) = ofCall c args ks := by
  rw [Constructor.parameters_of_not_takesTicker hticker] at h
  rw [Constructor.named, Constructor.parameters_of_not_takesTicker hticker]
  exact ofCall_zip h ks

end Binding

namespace Reading

variable {c : Constructor} {args : List Reading} {ks : List (String × Reading)}

theorem resolve_of_ne {wanted : Category} (h : c.category ≠ wanted) :
    resolve wanted c.name = .fail (.otherCategory c.name c.category wanted) := by
  rw [resolve, Constructor.ofName?_name]
  exact if_neg h

theorem callValues_named (hticker : c.takesTicker = false)
    (h : args.length ≤ c.parameters.length) (cx : Context) (ks : List (String × Reading)) :
    callValues cx c [] (c.named args ks) = callValues cx c args ks := by
  rw [callValues, callValues, Binding.ofCall_named hticker h]

theorem conditionOfCall_named (hvariadic : c.variadic = false)
    (h : args.length ≤ c.parameters.length) (cx : Context) (ks : List (String × Reading)) :
    conditionOfCall cx c.name [] (c.named args ks) = conditionOfCall cx c.name args ks := by
  rw [conditionOfCall, conditionOfCall]
  by_cases hcategory : c.category = .condition
  · have hticker : c.takesTicker = false :=
      Constructor.takesTicker_of_category (by rw [hcategory]; decide)
    rw [resolve_name hcategory, pure_bind, pure_bind, hvariadic, if_neg Bool.false_ne_true,
      if_neg Bool.false_ne_true, callValues_named hticker h]
  · rw [resolve_of_ne hcategory]
    rfl

theorem seriesOfCall_named (h : args.length ≤ c.parameters.length) (cx : Context)
    (ks : List (String × Reading)) :
    seriesOfCall cx c.name [] (c.named args ks) = seriesOfCall cx c.name args ks := by
  rw [seriesOfCall, seriesOfCall]
  by_cases hcategory : c.category = .series
  · rw [resolve_name hcategory, pure_bind, pure_bind]
    cases hticker : c.takesTicker with
    | false =>
      rw [if_neg Bool.false_ne_true, if_neg Bool.false_ne_true, callValues_named hticker h]
    | true =>
      rw [if_pos rfl, if_pos rfl]
      rcases args with _ | ⟨a, args⟩
      · rw [c.named_nil]
      · have hlength : args.length ≤ c.slots.length := by
          rw [Constructor.parameters_of_takesTicker hticker] at h
          exact Nat.le_of_succ_le_succ h
        have hnames : ∀ k ∈ (c.slots.map (·.name)).zip args, isTickerKey k = false := by
          intro k hk
          obtain ⟨slot, hslot, hname⟩ := List.mem_map.1 (List.of_mem_zip hk).1
          rw [isTickerKey, ← hname]
          exact Series.isTickerKey_slots hcategory slot hslot
        -- Of the arguments that are given by name, the first one is the ticker and no other one is.
        have htickers : (c.named (a :: args) ks).filter isTickerKey =
            ("ticker", a) :: ks.filter isTickerKey := by
          rw [Constructor.named_cons hticker, List.filter_cons_of_pos rfl, List.filter_append,
            List.filter_eq_nil_iff.2 fun k hk => by rw [hnames k hk]; exact Bool.false_ne_true]
          rfl
        have hothers : (c.named (a :: args) ks).filter (fun k => !isTickerKey k) =
            (c.slots.map (·.name)).zip args ++ ks.filter fun k => !isTickerKey k := by
          rw [Constructor.named_cons hticker, List.filter_cons_of_neg Bool.false_ne_true,
            List.filter_append, List.filter_eq_self.2 fun k hk => by rw [hnames k hk]; rfl]
        have hvalues : ∀ ks, callValues cx c [] ((c.slots.map (·.name)).zip args ++ ks) =
            callValues cx c args ks := fun ks => by
          rw [callValues, callValues, Binding.ofCall_zip hlength]
        rw [tickerArguments, htickers, hothers, List.drop_nil, hvalues]
        rfl
  · rw [resolve_of_ne hcategory]
    rfl

theorem settingOfCall_named {α : Type} {category : Category} (hcategory : category ≠ .series)
    {build? : Constructor → Values → Option α} (h : args.length ≤ c.parameters.length)
    (cx : Context) (ks : List (String × Reading)) :
    settingOfCall cx category build? c.name [] (c.named args ks) =
      settingOfCall cx category build? c.name args ks := by
  rw [settingOfCall, settingOfCall]
  split
  · rfl
  · next c' hc =>
    rw [Constructor.ofNameIn?, Constructor.ofName?_name, Option.filter_eq_some_iff] at hc
    obtain ⟨⟨⟩, hc⟩ := hc
    have hticker : c.takesTicker = false :=
      Constructor.takesTicker_of_category ((of_decide_eq_true hc).symm ▸ hcategory)
    rw [Binding.ofCall_named hticker h]

end Reading

/-! ### Steps -/

namespace Expr

/-- **An argument that is spelled in another way** is read alike. -/
theorem Respelling.readAlike {nested : Bool} {e e' : Expr} (h : Respelling nested e e')
    (hkeys : ∀ t ∈ e.subterms, t.KeysDistinct) : e.ReadAlike e' := by
  induction h with
  | reordered h => exact (CallAlike.of_perm (forall_subterms_call.1 hkeys).1 h).readAlike _
  | @named c args ks h =>
    intro cx
    have hlength : (args.map (Reading.of cx)).length ≤ c.parameters.length := by
      rw [List.length_map]
      exact h.length
    rw [Reading.of_call, Reading.of_call, ← Constructor.named_map, List.map_nil]
    exact
      { expr := .inr ⟨⟨_, _, _, rfl⟩, ⟨_, _, _, rfl⟩⟩
        condition := .of_eq (Reading.conditionOfCall_named h.variadic hlength cx _).symm
        series := .of_eq (Reading.seriesOfCall_named hlength cx _).symm
        orderSize := .of_eq (Reading.settingOfCall_named (by decide) hlength cx _).symm
        commission := .of_eq (Reading.settingOfCall_named (by decide) hlength cx _).symm
        stopLoss := .of_eq (Reading.settingOfCall_named (by decide) hlength cx _).symm
        takeProfit := .of_eq (Reading.settingOfCall_named (by decide) hlength cx _).symm }
  | positional h ih =>
    obtain ⟨hhere, hargs, -⟩ := forall_subterms_call.1 hkeys
    exact (CallAlike.of_positional hhere (ih (hargs _ List.mem_append_cons_self))).readAlike _
  | keyword h ih =>
    obtain ⟨hhere, -, hks⟩ := forall_subterms_call.1 hkeys
    exact (CallAlike.of_keyword hhere (ih (hks _ List.mem_append_cons_self))).readAlike _

end Expr

/-! ### Texts -/

namespace Expr

variable {e e' : Expr}

/-- A step that does not name the arguments of the expression itself leads to a call with the same
name. -/
theorem Respelling.exists_callAlike (h : Respelling false e e')
    (hkeys : ∀ t ∈ e.subterms, t.KeysDistinct) : ∃ callee args args' ks ks',
      e = .call callee args ks ∧ e' = .call callee args' ks' ∧ CallAlike args ks args' ks' := by
  cases h with
  | reordered h => exact ⟨_, _, _, _, _, rfl, rfl, .of_perm (forall_subterms_call.1 hkeys).1 h⟩
  | positional h =>
    obtain ⟨hhere, hargs, -⟩ := forall_subterms_call.1 hkeys
    exact ⟨_, _, _, _, _, rfl, rfl,
      .of_positional hhere (h.readAlike (hargs _ List.mem_append_cons_self))⟩
  | keyword h =>
    obtain ⟨hhere, -, hks⟩ := forall_subterms_call.1 hkeys
    exact ⟨_, _, _, _, _, rfl, rfl,
      .of_keyword hhere (h.readAlike (hks _ List.mem_append_cons_self))⟩

/-- **A step changes nothing about the outcome.** -/
theorem Respelling.same_checkExpr (h : Respelling false e e')
    (hkeys : ∀ t ∈ e.subterms, t.KeysDistinct) (defaults : Defaults) (today : Date) :
    (Outcome.ofCheck (Strategy.checkExpr defaults today e)).Same
      (.ofCheck (Strategy.checkExpr defaults today e')) := by
  by_cases hshows : DeniedName.ShowsAnywhere e
  · obtain ⟨name, hname⟩ := Option.isSome_iff_exists.1 (DeniedName.isSome_find?_iff.2 hshows)
    obtain ⟨name', hname'⟩ := Option.isSome_iff_exists.1
      (DeniedName.isSome_find?_iff.2 (h.showsAnywhere_iff.1 hshows))
    rw [Strategy.checkExpr.eq_def, hname, Strategy.checkExpr.eq_def, hname']
    exact .fail _ _
  · have hname := DeniedName.find?_eq_none_iff.2 hshows
    have hname' :=
      DeniedName.find?_eq_none_iff.2 fun hshows' => hshows (h.showsAnywhere_iff.2 hshows')
    obtain ⟨callee, args, args', ks, ks', rfl, rfl, hcall⟩ := h.exists_callAlike hkeys
    rw [Strategy.checkExpr.eq_def, hname, Strategy.checkExpr.eq_def, hname']
    dsimp only
    split
    · obtain ⟨hresult, hnotes⟩ := Strategy.checkArguments_alike hcall defaults today
      exact .of_alike hresult hnotes
    · exact .fail _ _

/-- **However many steps** there are between two expressions, in whatever direction, the outcome is
the same. -/
theorem Respelled.same_checkExpr (h : Respelled e e')
    (hkeys : ∀ t ∈ e.subterms, t.KeysDistinct) (defaults : Defaults) (today : Date) :
    (Outcome.ofCheck (Strategy.checkExpr defaults today e)).Same
      (.ofCheck (Strategy.checkExpr defaults today e')) := by
  -- Along the steps, keys stay distinct, whichever way they go.
  have hsteps : ((∀ t ∈ e.subterms, t.KeysDistinct) ↔ ∀ t ∈ e'.subterms, t.KeysDistinct) ∧
      ((∀ t ∈ e.subterms, t.KeysDistinct) →
        (Outcome.ofCheck (Strategy.checkExpr defaults today e)).Same
          (.ofCheck (Strategy.checkExpr defaults today e'))) := by
    clear hkeys
    induction h with
    | rel e e' h => exact ⟨h.keysDistinct_iff, fun hkeys => h.same_checkExpr hkeys defaults today⟩
    | refl e => exact ⟨.rfl, fun _ => .refl _⟩
    | symm e e' _ ih => exact ⟨ih.1.symm, fun hkeys => (ih.2 (ih.1.2 hkeys)).symm⟩
    | trans e e' e'' _ _ ih ih' =>
      exact ⟨ih.1.trans ih'.1, fun hkeys => (ih.2 hkeys).trans (ih'.2 (ih.1.1 hkeys))⟩
  exact hsteps.2 hkeys

end Expr

/-- **Validation does not depend on how arguments are spelled.** If the keyword arguments of calls
are put into another order, anywhere in a text, or if arguments inside of it are given by name and
not by position, then under any defaults and on any day the text is accepted as before or refused as
before. It comes to the same strategy and the same canonical text, and if it is accepted, what is
recorded is recorded under the same keys. -/
theorem validate_respelled {source other : String} {e e' : Expr} (he : Expr.parse source = .ok e)
    (he' : Expr.parse other = .ok e') (h : e.Respelled e') (defaults : Defaults) (today : Date) :
    (validate source defaults today).ok = (validate other defaults today).ok ∧
      (validate source defaults today).sanitized = (validate other defaults today).sanitized ∧
      (validate source defaults today).strategy = (validate other defaults today).strategy ∧
      ((validate source defaults today).ok = true → ∀ key,
        key ∈ (validate source defaults today).changes.keys ↔
          key ∈ (validate other defaults today).changes.keys) := by
  have hsame : (validate source defaults today).Same (validate other defaults today) := by
    rw [validate, validate, Strategy.check, Strategy.check, he, he']
    exact h.same_checkExpr (Expr.keysDistinct_of_parse he) defaults today
  exact ⟨hsame.ok_eq, hsame.sanitized_eq, hsame.strategy, hsame.keys⟩

/-- A strategy whose arguments are given by position where they can be. -/
def byPosition : String :=
  "Strategy(buy_condition=LessThanCondition(SMA('A', 10), CONST(1)), " ++
    "sell_condition=LessThanCondition(OBV('B'), CONST(1)), ticker='A', note=1)"

/-- The same strategy with arguments that are given by name, and in another order. -/
def byName : String :=
  "Strategy(note=1, ticker='A', " ++
    "buy_condition=LessThanCondition(second_series=CONST(1), " ++
    "first_series=SMA(length=10, ticker='A')), " ++
    "sell_condition=LessThanCondition(OBV('B'), CONST(1)))"

/-- The one is respelled as the other, and both come to the same strategy. -/
theorem validate_respelled_byName : ∃ e e', Expr.parse byPosition = .ok e ∧
    Expr.parse byName = .ok e' ∧ e.Respelled e' ∧
    (validate byPosition .standard ⟨2024, 2, 29, by decide⟩).ok = true ∧
    (validate byPosition .standard ⟨2024, 2, 29, by decide⟩).strategy =
      (validate byName .standard ⟨2024, 2, 29, by decide⟩).strategy := by
  let one : Expr := .call "CONST" [.int 1] []
  let sell : String × Expr :=
    ("sell_condition", .call "LessThanCondition" [.call "OBV" [.quoted "B"] [], one] [])
  let ticker : String × Expr := ("ticker", .quoted "A")
  let note : String × Expr := ("note", .int 1)
  let strategy (buy : Expr) : Expr :=
    .call "Strategy" [] [("buy_condition", buy), sell, ticker, note]
  let below (average : Expr) : Expr := .call "LessThanCondition" [average, one] []
  -- The arguments of the average are named and exchanged, and so are those of the comparison.
  let average : Expr := .call "SMA" [.quoted "A", .int 10] []
  let averageNamed : Expr := .call "SMA" [] [ticker, ("length", .int 10)]
  let averageExchanged : Expr := .call "SMA" [] [("length", .int 10), ticker]
  let buyNamed : Expr :=
    .call "LessThanCondition" [] [("first_series", averageExchanged), ("second_series", one)]
  let buyExchanged : Expr :=
    .call "LessThanCondition" [] [("second_series", one), ("first_series", averageExchanged)]
  have hinside : ∀ {buy buy' : Expr}, Expr.Respelling true buy buy' →
      (strategy buy).Respelled (strategy buy') :=
    fun h => .rel _ _ (show Expr.Respelling false (.call "Strategy" [] ([] ++ (_, _) :: _))
      (.call "Strategy" [] ([] ++ (_, _) :: _)) from .keyword h)
  have haverage : ∀ {a a' : Expr}, Expr.Respelling true a a' →
      Expr.Respelling true (below a) (below a') :=
    fun h => show Expr.Respelling true (.call _ ([] ++ _ :: _) _) (.call _ ([] ++ _ :: _) _) from
      .positional h
  have hnamed : Expr.Respelling true average averageNamed :=
    .named (c := .sma) ⟨rfl, by decide, by decide⟩
  have hexchanged : Expr.Respelling true averageNamed averageExchanged :=
    .reordered (.swap _ _ _)
  have hbuyNamed : Expr.Respelling true (below averageExchanged) buyNamed :=
    .named (c := .lessThan) ⟨rfl, by decide, by decide⟩
  have hbuyExchanged : Expr.Respelling true buyNamed buyExchanged :=
    .reordered (.swap _ _ _)
  have hroot : (strategy buyExchanged).Respelled
      (.call "Strategy" [] [note, ticker, ("buy_condition", buyExchanged), sell]) :=
    .rel _ _ (.reordered (by decide +kernel))
  have hall : (strategy (below average)).Respelled
      (.call "Strategy" [] [note, ticker, ("buy_condition", buyExchanged), sell]) :=
    (hinside (haverage hnamed)).trans _ _ _ <| (hinside (haverage hexchanged)).trans _ _ _ <|
      (hinside hbuyNamed).trans _ _ _ <| (hinside hbuyExchanged).trans _ _ _ hroot
  have hposition : Expr.parse byPosition = .ok (strategy (below average)) :=
    Except.toOption_eq_some_iff.1 (by decide +kernel)
  have hname : Expr.parse byName =
      .ok (.call "Strategy" [] [note, ticker, ("buy_condition", buyExchanged), sell]) :=
    Except.toOption_eq_some_iff.1 (by decide +kernel)
  exact ⟨_, _, hposition, hname, hall, by decide +kernel,
    (validate_respelled hposition hname hall .standard ⟨2024, 2, 29, by decide⟩).2.2.1⟩

end TradeSignals
