import TradeSignals.Proofs.Validation.CallsAlike
import TradeSignals.Proofs.Validation.Settings

/-!
# Strategies that are read alike

Two lists of keyword arguments come to the same strategy, or neither comes to any, if their
arguments are read alike, whatever their order (`TradeSignals.Strategy.checkKeywords_alike`). Then
the outcomes are the same but for what is said in them (`TradeSignals.Outcome.Same`): if a strategy
comes out, what is recorded is recorded under the same keys.
-/

namespace TradeSignals

/-! ### Keyword arguments of a strategy -/

namespace Strategy

variable {defaults : Defaults} {today : Date} {cx : Context} {args args' : List Expr}
  {ks ks' : List (String × Expr)} {e e' : Expr} {s : Strategy}

/-- What is given for a parameter is read alike, or nothing is given. -/
theorem keyword?_alike (h : Expr.CallAlike args ks args' ks') (f : Field) :
    Option.Rel Expr.ReadAlike (keyword? ks f) (keyword? ks' f) := by
  rcases hks : keyword? ks f with _ | e
  · rcases hks' : keyword? ks' f with _ | e'
    · exact .none
    · obtain ⟨⟨key, e⟩, hmem, hkey, -⟩ :=
        h.keywords.right _ ((keyword?_eq_some_iff h.nodup').1 hks')
      obtain rfl : key = f.key := hkey
      rw [(keyword?_eq_some_iff h.nodup).2 hmem] at hks
      cases hks
  · obtain ⟨⟨key, e'⟩, hmem, hkey, he⟩ := h.keywords.left _ ((keyword?_eq_some_iff h.nodup).1 hks)
    obtain rfl : f.key = key := hkey
    rw [(keyword?_eq_some_iff h.nodup').2 hmem]
    exact .some he

theorem checkTicker_alike (h : Expr.CallAlike args ks args' ks') (defaults : Defaults) :
    (checkTicker defaults ks).Alike Repair.key Eq (checkTicker defaults ks') := by
  have hticker := keyword?_alike h .ticker
  rw [checkTicker, checkTicker]
  generalize keyword? ks .ticker = x at hticker ⊢
  generalize keyword? ks' .ticker = y at hticker ⊢
  cases hticker with
  | none => exact .refl _
  | @some e e' he =>
    have hplain := (he ⟨defaults.ticker, defaults.startDate⟩).ticker
    rw [Reading.expr_of, Reading.expr_of] at hplain
    rw [Option.map_some, Option.map_some]
    generalize Plain.ticker e = x at hplain ⊢
    generalize Plain.ticker e' = y at hplain ⊢
    cases hplain with
    | ok h =>
      cases h
      exact .refl _
    | error fault fault' => exact .note_bind (.refl _) rfl

theorem tickerOf_eq (h : Expr.CallAlike args ks args' ks') (defaults : Defaults) :
    tickerOf defaults ks = tickerOf defaults ks' := by
  have hresult := (checkTicker_alike h defaults).result.toOption_eq
  rw [result_checkTicker, result_checkTicker] at hresult
  exact Option.some.inj hresult

theorem resultOf_alike (h : e.ReadAlike e') (cx : Context) (f : Field) :
    (resultOf cx f e).toOption = (resultOf cx f e').toOption :=
  ((h cx).parameter cx (some .strategy) f.slot).result.toOption_eq

/-- **A parameter is checked alike** if its argument is read alike. -/
theorem checkField_alike (h : e.ReadAlike e') (cx : Context) (defaults : Defaults) (f : Field) :
    (checkField cx defaults f e).Alike Repair.key (Except.Alike Eq)
      (checkField cx defaults f e') := by
  have hparameter := (h cx).parameter cx (some .strategy) f.slot
  have hinside : ∀ n m : Note, n.place = m.place →
      (Repair.inside f n).key = (Repair.inside f m).key := by
    intro n m hnm
    obtain ⟨hconstructor, hplace⟩ := Prod.mk.inj hnm
    rw [Repair.key, Repair.key, Note.key, Note.key, hconstructor, hplace]
  refine ((hparameter.translate id hinside).attempt.translate _ fun _ _ => id).bind
    fun x y hxy => ?_
  cases hxy with
  | ok h => exact .pure (.ok h)
  | error fault fault' =>
    dsimp only
    split
    · exact .fail _ _
    · exact .note_bind (.pure (.error fault fault')) rfl

theorem checkFields_alike (key : String) (h : e.ReadAlike e') (cx : Context)
    (defaults : Defaults) : List.Matched (fun r r' => r.key = r'.key)
      (checkFields cx defaults [(key, e)]).notes (checkFields cx defaults [(key, e')]).notes := by
  by_cases hfield : ∃ f ≠ .ticker, Field.ofKey? key = some f
  · obtain ⟨f, hf, hkey⟩ := hfield
    rw [checkFields_cons hkey hf, checkFields_cons hkey hf]
    have hone := (checkField_alike h cx defaults f).bind (S := fun _ _ => True)
      (f := fun setting => do return (f, setting) :: (← checkFields cx defaults []))
      (g := fun setting => do return (f, setting) :: (← checkFields cx defaults []))
      fun _ _ _ => ⟨.nil, .ok trivial⟩
    exact hone.notes
  · have hkey : ∀ f ≠ .ticker, Field.ofKey? key ≠ some f := fun f hf heq => hfield ⟨f, hf, heq⟩
    rw [checkFields_cons_of_other hkey, checkFields_cons_of_other hkey]
    exact .nil

theorem noteUnknown_alike (h : Expr.CallAlike args ks args' ks') :
    (noteUnknown ks).Alike Repair.key Eq (noteUnknown ks') := by
  have hunknown : List.Matched Eq (unknownKeys ks) (unknownKeys ks') :=
    (h.keywords.map fun _ _ => And.left).filter fun _ _ hkey => by rw [hkey]
  rw [noteUnknown, noteUnknown]
  generalize unknownKeys ks = keys at hunknown ⊢
  generalize unknownKeys ks' = keys' at hunknown ⊢
  rcases keys with _ | ⟨key, keys⟩
  · rw [hunknown.eq_nil_iff.1 rfl]
    exact .refl _
  · rcases keys' with _ | ⟨key', keys'⟩
    · exact absurd (hunknown.eq_nil_iff.2 rfl) (List.cons_ne_nil _ _)
    · exact .note_bind (.pure rfl) rfl

theorem isAccepted_iff (h : e.ReadAlike e') (cx : Context) :
    Condition.IsAccepted cx e ↔ Condition.IsAccepted cx e' :=
  (h cx).condition.result.isOk_iff

/-- **Keyword arguments that are read alike** come to the same strategy or to none, and what is
noted about them has the same keys. -/
theorem checkKeywords_alike (h : Expr.CallAlike args ks args' ks') (defaults : Defaults)
    (today : Date) : Except.Alike Eq (checkKeywords defaults today ks).result
        (checkKeywords defaults today ks').result ∧
      ∀ s, (checkKeywords defaults today ks).result = .ok s →
        List.Matched (fun r r' => r.key = r'.key) (checkKeywords defaults today ks).notes
          (checkKeywords defaults today ks').notes := by
  have hok : (∃ s, (checkKeywords defaults today ks).result = .ok s) ↔
      ∃ s, (checkKeywords defaults today ks').result = .ok s := by
    rw [checkKeywords_isOk_iff h.nodup "", checkKeywords_isOk_iff h.nodup' ""]
    have hbuy := keyword?_alike h .buyCondition
    have hsell := keyword?_alike h .sellCondition
    generalize keyword? ks .buyCondition = buy at hbuy ⊢
    generalize keyword? ks' .buyCondition = buy' at hbuy ⊢
    generalize keyword? ks .sellCondition = sell at hsell ⊢
    generalize keyword? ks' .sellCondition = sell' at hsell ⊢
    cases hbuy with
    | none => simp
    | some hbuy =>
      cases hsell with
      | none => simp
      | some hsell => simp [isAccepted_iff hbuy, isAccepted_iff hsell]
  have hboth : ∀ s s', (checkKeywords defaults today ks).result = .ok s →
      (checkKeywords defaults today ks').result = .ok s' →
        s = s' ∧ List.Matched (fun r r' => r.key = r'.key) (checkKeywords defaults today ks).notes
          (checkKeywords defaults today ks').notes := by
    intro s s' hs hs'
    obtain ⟨settings, hsettings, hs⟩ := checkKeywords_eq_ok.1 hs
    obtain ⟨settings', hsettings', hs'⟩ := checkKeywords_eq_ok.1 hs'
    have hnotes := notes_checkKeywords hsettings
    have hnotes' := notes_checkKeywords hsettings'
    rw [← tickerOf_eq h] at hsettings' hs' hnotes'
    obtain ⟨hlookup, hfields⟩ := checkFields_eq_ok hsettings
    obtain ⟨hlookup', hfields'⟩ := checkFields_eq_ok hsettings'
    have hsame : ofSettings ⟨tickerOf defaults ks, today⟩ defaults settings =
        ofSettings ⟨tickerOf defaults ks, today⟩ defaults settings' := by
      refine ofSettings_congr fun f hf => ?_
      rw [hlookup f hf, hlookup' f hf]
      have hf := keyword?_alike h f
      generalize keyword? ks f = x at hf ⊢
      generalize keyword? ks' f = y at hf ⊢
      cases hf with
      | none => rfl
      | some he => exact congrArg some (resultOf_alike he _ f)
    rw [hsame] at hs
    refine ⟨Except.ok.inj (hs.symm.trans hs'), ?_⟩
    rw [hnotes, hnotes', hfields, hfields', hsame]
    refine (checkTicker_alike h defaults).notes.append ((h.keywords.flatMap ?_).append
      ((noteUnknown_alike h).notes.append (Verdict.Alike.refl _).notes))
    rintro ⟨key, e⟩ ⟨_, e'⟩ ⟨rfl, he⟩
    exact checkFields_alike key he _ defaults
  refine ⟨.of_ok hok fun s s' hs hs' => (hboth s s' hs hs').1, fun s hs => ?_⟩
  obtain ⟨s', hs'⟩ := hok.1 ⟨s, hs⟩
  exact (hboth s s' hs hs').2

theorem checkArguments_alike (h : Expr.CallAlike args ks args' ks') (defaults : Defaults)
    (today : Date) : Except.Alike Eq (checkArguments defaults today args ks).result
        (checkArguments defaults today args' ks').result ∧
      ∀ s, (checkArguments defaults today args ks).result = .ok s →
        List.Matched (fun r r' => r.key = r'.key) (checkArguments defaults today args ks).notes
          (checkArguments defaults today args' ks').notes := by
  obtain ⟨hresult, hnotes⟩ := checkKeywords_alike h defaults today
  rw [result_checkArguments, result_checkArguments, notes_checkArguments, notes_checkArguments]
  refine ⟨hresult, fun s hs => List.Matched.append ?_ (hnotes s hs)⟩
  -- Positional arguments are counted, and their number is not part of the key.
  cases h.positional with
  | nil => exact .nil
  | cons => exact .of_forall₂ (.cons rfl .nil)

end Strategy

/-! ### Outcomes -/

namespace Outcome

/-- **Two outcomes are the same** but for what is said in them: they have the same strategy, and if
there is one, what is recorded is recorded under the same keys. -/
structure Same (o o' : Outcome) : Prop where
  /-- The strategy. -/
  strategy : o.strategy = o'.strategy
  /-- The keys. -/
  keys : o.ok = true → ∀ key, key ∈ o.changes.keys ↔ key ∈ o'.changes.keys

namespace Same

variable {o o' o'' : Outcome}

theorem ok_eq (h : o.Same o') : o.ok = o'.ok := congrArg Option.isSome h.strategy

theorem sanitized_eq (h : o.Same o') : o.sanitized = o'.sanitized := by
  rw [sanitized, sanitized, h.strategy]

theorem refl (o : Outcome) : o.Same o := ⟨rfl, fun _ _ => .rfl⟩

theorem symm (h : o.Same o') : o'.Same o :=
  ⟨h.strategy.symm, fun hok key => (h.keys (h.ok_eq.trans hok) key).symm⟩

theorem trans (h : o.Same o') (h' : o'.Same o'') : o.Same o'' :=
  ⟨h.strategy.trans h'.strategy,
    fun hok key => (h.keys hok key).trans (h'.keys (h.ok_eq.symm.trans hok) key)⟩

/-- Nothing comes out of a rejection, whatever its reason. -/
theorem fail (r r' : Rejection) : (ofCheck (.fail r)).Same (ofCheck (.fail r')) :=
  ⟨rfl, fun hok => absurd hok Bool.false_ne_true⟩

theorem of_alike {v w : StrategyCheck Strategy} (hresult : Except.Alike Eq v.result w.result)
    (hnotes : ∀ s, v.result = .ok s → List.Matched (fun r r' => r.key = r'.key) v.notes w.notes) :
    (ofCheck v).Same (ofCheck w) := by
  refine ⟨Option.ext fun s => ?_, fun hok key => ?_⟩
  · rw [strategy_ofCheck, strategy_ofCheck, hresult.eq_ok_iff]
  · obtain ⟨s, hs⟩ := ok_ofCheck.1 hok
    rw [mem_keys_changes_ofCheck hs, mem_keys_changes_ofCheck (hresult.eq_ok_iff.1 hs)]
    exact (hnotes s hs).mem_map_iff

end Same

end Outcome

end TradeSignals
