import TradeSignals.Proofs.Expr.ReadBack
import TradeSignals.Proofs.Strategy.InRange
import TradeSignals.Strategy.Field
import TradeSignals.Validation.DeniedName

/-!
# The text of a strategy

A strategy is written in the words of the vocabulary only, whatever its ticker and its
numbers are: its calls name constructors and their parameters, and its members name sets of
the vocabulary. The words of the vocabulary are words, and none of them is denied, so the
text of a strategy in range is read back (`TradeSignals.Strategy.parse_text`) and passes the
search for denied names (`TradeSignals.Strategy.find?_toExpr`).
-/

namespace TradeSignals

namespace Expr

/-! ### The words of the vocabulary -/

/-- Does a node, its arguments left out, use words of the vocabulary only? -/
def OfVocabularyHere : Expr → Prop
  | .literal (.float value) => value.isFinite = true
  | .literal _ => True
  | .member kind item => (∃ k : ChoiceKind, kind = k.name ∧ item ∈ k.labels) ∨
    kind = Retracement.kindName ∧ item ∈ Choice.labels Retracement
  | .name _ => False
  | .call callee _ keywords => ∃ c : Constructor, callee = c.name ∧
    (keywords.map (·.1)).Sublist (c.slots.map (·.name))

/-- **An expression in the words of the vocabulary**, with finite numbers. -/
def OfVocabulary (e : Expr) : Prop :=
  ∀ t ∈ e.subterms, t.OfVocabularyHere

theorem ofVocabulary_call {c : String} {ps : List Expr} {ks : List (String × Expr)} :
    (call c ps ks).OfVocabulary ↔ (call c ps ks).OfVocabularyHere ∧
      (∀ e ∈ ps, e.OfVocabulary) ∧ ∀ ke ∈ ks, ke.2.OfVocabulary :=
  forall_subterms_call

/-- A node that is no call is in the words of the vocabulary if it is so itself. -/
theorem ofVocabulary_of_here {e : Expr} (hcall : ∀ c ps ks, e ≠ .call c ps ks)
    (h : e.OfVocabularyHere) : e.OfVocabulary := by
  intro t ht
  cases e with
  | call c ps ks => exact absurd rfl (hcall c ps ks)
  | _ =>
    obtain rfl := List.mem_singleton.1 ht
    exact h

/-- A word that may be written: it is one, and it is not denied. -/
def isUsable (w : String) : Bool :=
  Text.isWord w && !DeniedName.denies w

theorem isUsable_iff {w : String} :
    isUsable w = true ↔ Text.isWord w = true ∧ DeniedName.denies w = false := by
  rw [isUsable, Bool.and_eq_true, Bool.not_eq_true']

/-- The words of the constructors may be written, and no parameter has two keywords. -/
theorem isUsable_constructor (c : Constructor) : isUsable c.name = true ∧
    (∀ key ∈ c.slots.map (·.name), isUsable key = true) ∧ (c.slots.map (·.name)).Nodup := by
  -- The vocabulary is finite, so this is a matter of looking through it.
  cases c <;> decide +kernel

/-- The words of the enumerations may be written. -/
theorem isUsable_choice (k : ChoiceKind) : isUsable k.name = true ∧
    ∀ item ∈ k.labels, isUsable item = true := by
  cases k <;> decide +kernel

theorem isUsable_retracement : isUsable Retracement.kindName = true ∧
    ∀ item ∈ Choice.labels Retracement, isUsable item = true := by
  decide +kernel

theorem isUsable_member {kind item : String} (h : (member kind item).OfVocabularyHere) :
    isUsable kind = true ∧ isUsable item = true := by
  rcases h with ⟨k, rfl, hitem⟩ | ⟨rfl, hitem⟩
  · exact ⟨(isUsable_choice k).1, (isUsable_choice k).2 item hitem⟩
  · exact ⟨isUsable_retracement.1, isUsable_retracement.2 item hitem⟩

theorem words_of_isUsable {w : String} (h : isUsable w = true) : ∃ ws, Words w ws :=
  ⟨[w], by simp, List.forall_mem_singleton.2 (isUsable_iff.1 h).1, String.intercalate_singleton⟩

theorem OfVocabularyHere.wellFormedHere {t : Expr} (h : t.OfVocabularyHere) :
    t.WellFormedHere := by
  cases t with
  | literal l => cases l <;> exact h
  | member kind item =>
    obtain ⟨hkind, hitem⟩ := isUsable_member h
    exact ⟨words_of_isUsable hkind, (isUsable_iff.1 hitem).1⟩
  | name w => exact h.elim
  | call callee ps ks =>
    obtain ⟨c, rfl, hkeys⟩ := h
    obtain ⟨hname, hslots, hnodup⟩ := isUsable_constructor c
    refine ⟨words_of_isUsable hname, fun ke hke => ?_, hkeys.nodup hnodup⟩
    exact (isUsable_iff.1 (hslots _ (hkeys.subset (List.mem_map_of_mem hke)))).1

theorem OfVocabularyHere.here?_eq_none {t : Expr} (h : t.OfVocabularyHere) :
    DeniedName.here? t = none := by
  cases t with
  | literal l => rfl
  | member kind item =>
    obtain ⟨hkind, hitem⟩ := isUsable_member h
    rw [DeniedName.here?, (isUsable_iff.1 hkind).2, (isUsable_iff.1 hitem).2]
    rfl
  | name w => exact h.elim
  | call callee ps ks =>
    obtain ⟨c, rfl, hkeys⟩ := h
    obtain ⟨hname, hslots, -⟩ := isUsable_constructor c
    rw [DeniedName.here?, (isUsable_iff.1 hname).2, if_neg Bool.false_ne_true,
      List.find?_eq_none]
    intro key hkey
    rw [(isUsable_iff.1 (hslots key (hkeys.subset hkey))).2]
    exact Bool.false_ne_true

/-- An expression in the words of the vocabulary is well formed. -/
theorem OfVocabulary.wellFormed {e : Expr} (h : e.OfVocabulary) : e.WellFormed :=
  fun t ht => (h t ht).wellFormedHere

/-- No word of the vocabulary is denied. -/
theorem OfVocabulary.find?_eq_none {e : Expr} (h : e.OfVocabulary) :
    DeniedName.find? e = none :=
  List.findSome?_eq_none_iff.2 fun t ht => (h t ht).here?_eq_none

theorem ofVocabulary_int (value : Int64) : (int value).OfVocabulary :=
  ofVocabulary_of_here (by simp) trivial

theorem ofVocabulary_quoted (value : String) : (quoted value).OfVocabulary :=
  ofVocabulary_of_here (by simp) trivial

theorem ofVocabulary_float {value : Float} (h : value.isFinite = true) :
    (float value).OfVocabulary :=
  ofVocabulary_of_here (by simp) h

theorem ofVocabulary_choice {k : ChoiceKind} {item : String} (h : item ∈ k.labels) :
    (member k.name item).OfVocabulary :=
  ofVocabulary_of_here (by simp) (.inl ⟨k, rfl, h⟩)

/-- A call of a constructor with keyword arguments only. -/
theorem ofVocabulary_keywords {c : Constructor} {ks : List (String × Expr)}
    (hkeys : (ks.map (·.1)).Sublist (c.slots.map (·.name)))
    (hks : ∀ ke ∈ ks, ke.2.OfVocabulary) : (call c.name [] ks).OfVocabulary :=
  ofVocabulary_call.2 ⟨⟨c, rfl, hkeys⟩, by simp, hks⟩

end Expr

open TradeSignals.Expr

/-! ### Series and conditions -/

/-- The keywords of a series are parameters of its constructor, in order. -/
theorem Series.keys_sublist (s : Series) :
    (s.keywords.map (·.1)).Sublist (s.constructor.slots.map (·.name)) := by
  cases s with
  | windowed study => cases study <;> exact .refl _
  | band side => cases side <;> exact .refl _
  | constant => exact List.nil_sublist _
  | _ => exact .refl _

/-- A series in range is written in the words of the vocabulary. -/
theorem Series.ofVocabulary_toExpr {s : Series} (h : s.InRange) : s.toExpr.OfVocabulary := by
  refine ofVocabulary_call.2 ⟨⟨s.constructor, rfl, s.keys_sublist⟩, ?_, ?_⟩
  · cases s <;> simp [positional, ticker?, ofVocabulary_int, ofVocabulary_quoted]
  · cases s with
    | constant | obv => simp [keywords]
    | price ticker field =>
      refine List.forall_mem_singleton.2 (ofVocabulary_choice ?_)
      exact List.mem_map_of_mem (by cases field <;> decide)
    | windowed => exact List.forall_mem_singleton.2 (ofVocabulary_int _)
    | macd => simp [keywords, lengthExpr, ofVocabulary_int]
    | macdSignal => simp [keywords, lengthExpr, ofVocabulary_int]
    | band side ticker length deviations =>
      simp [keywords, lengthExpr, ofVocabulary_int, ofVocabulary_float h.2.2.1]
    | retracement ticker level length =>
      refine List.forall_mem_cons.2 ⟨ofVocabulary_of_here (by simp) (.inr ⟨rfl, ?_⟩),
        List.forall_mem_singleton.2 (ofVocabulary_int _)⟩
      exact List.mem_map_of_mem (by cases level <;> decide)

/-- A condition in range is written in the words of the vocabulary. -/
theorem Condition.ofVocabulary_toExpr {c : Condition} (h : c.InRange) :
    c.toExpr.OfVocabulary := by
  have hjunction : ∀ (k : Constructor) (cs : List Condition),
      (∀ c ∈ cs, c.toExpr.OfVocabulary) → (call k.name (toExprs cs) []).OfVocabulary := by
    intro k cs hcs
    refine ofVocabulary_call.2 ⟨⟨k, rfl, List.nil_sublist _⟩, ?_, by simp⟩
    rw [toExprs_eq]
    exact List.forall_mem_map.2 hcs
  induction c using induct with
  | comparison relation first second =>
    refine ofVocabulary_keywords (by cases relation <;> exact .refl _) ?_
    simp [Series.ofVocabulary_toExpr h.1, Series.ofVocabulary_toExpr h.2]
  | all cs ih => exact hjunction .and cs fun c hc => ih c hc (allInRange_iff.1 h.2 c hc)
  | any cs ih => exact hjunction .or cs fun c hc => ih c hc (allInRange_iff.1 h.2 c hc)
  | after base days ih =>
    refine ofVocabulary_keywords (.refl _) ?_
    simp [ih h.1, Series.lengthExpr, ofVocabulary_int]
  | changeOver s percent days =>
    refine ofVocabulary_keywords (.refl _) ?_
    simp [Series.ofVocabulary_toExpr h.1, ofVocabulary_float h.2.1, Series.lengthExpr,
      ofVocabulary_int]
  | change s percent =>
    refine ofVocabulary_keywords (.refl _) ?_
    simp [Series.ofVocabulary_toExpr h.1, ofVocabulary_float h.2]
  | trend direction s days =>
    refine ofVocabulary_keywords (by cases direction <;> exact .refl _) ?_
    simp [Series.ofVocabulary_toExpr h.1, Series.lengthExpr, ofVocabulary_int]

/-! ### Settings -/

theorem OrderSize.ofVocabulary_toExpr {size : OrderSize} (h : size.InRange) :
    size.toExpr.OfVocabulary := by
  cases size with
  | contracts =>
    exact ofVocabulary_keywords (.refl _) (List.forall_mem_singleton.2 (ofVocabulary_int _))
  | usd | percentOfPortfolio =>
    exact ofVocabulary_keywords (.refl _) (List.forall_mem_singleton.2 (ofVocabulary_float h.1))

theorem Commission.ofVocabulary_toExpr {commission : Commission} (h : commission.InRange) :
    commission.toExpr.OfVocabulary := by
  cases commission <;>
    exact ofVocabulary_keywords (.refl _) (List.forall_mem_singleton.2 (ofVocabulary_float h.1))

theorem StopLoss.ofVocabulary_toExpr {stop : StopLoss Float} (h : stop.InRange) :
    stop.toExpr.OfVocabulary := by
  refine ofVocabulary_keywords (.refl _) (List.forall_mem_cons.2 ⟨ofVocabulary_choice ?_,
    List.forall_mem_singleton.2 (ofVocabulary_float h.1)⟩)
  exact List.mem_map_of_mem (by cases stop.kind <;> decide)

theorem TakeProfit.ofVocabulary_toExpr {profit : TakeProfit Float} (h : profit.InRange) :
    profit.toExpr.OfVocabulary :=
  ofVocabulary_keywords (.refl _) (List.forall_mem_singleton.2 (ofVocabulary_float h.1))

/-! ### Strategies -/

namespace Strategy

/-- The expression of a parameter, if it is written. -/
def expr? (s : Strategy) : Field → Option Expr
  | .ticker => some (.quoted s.ticker)
  | .positionType => some (memberExpr .positionType s.positionType)
  | .buyCondition => some s.buyCondition.toExpr
  | .sellCondition => some s.sellCondition.toExpr
  | .startDate => s.startDate.map dateExpr
  | .endDate => s.endDate.map dateExpr
  | .stopLoss => s.stopLoss.map StopLoss.toExpr
  | .takeProfit => s.takeProfit.map TakeProfit.toExpr
  | .interval => some (memberExpr .interval s.interval)
  | .period => s.period.map (memberExpr .period)
  | .initialCapital => some (.float s.initialCapital)
  | .orderSize => some s.orderSize.toExpr
  | .tradeCommissions => s.tradeCommissions.map Commission.toExpr

/-- The keyword arguments of a strategy are its parameters in order. -/
theorem keywords_eq (s : Strategy) :
    s.keywords = Field.all.filterMap fun f => (s.expr? f).map (f.key, ·) := by
  have hcons : ∀ (g : Field → Option (String × Expr)) f fs,
      (f :: fs).filterMap g = (g f).toList ++ fs.filterMap g := by
    intro g f fs
    cases h : g f <;> simp [h]
  have hoptional : ∀ {α : Type} (key : String) (toExpr : α → Expr) (a : Option α),
      optional key toExpr a = ((a.map toExpr).map (key, ·)).toList := by
    intro α key toExpr a
    cases a <;> rfl
  -- Both lists are the same thirteen entries, some of them there only for some strategies.
  simp only [Field.all, hcons, expr?, keywords, hoptional, List.filterMap_nil, Field.key,
    Option.map_some, Option.toList_some, List.append_assoc, List.append_nil, List.cons_append,
    List.nil_append]

/-- What is written of parameters, in order, has the keys of these parameters, in order. -/
theorem keys_sublist (g : Field → Option Expr) (fs : List Field) :
    ((fs.filterMap fun f => (g f).map (f.key, ·)).map (·.1)).Sublist (fs.map Field.key) := by
  induction fs with
  | nil => exact .refl _
  | cons f fs ih =>
    cases h : g f with
    | none =>
      rw [List.filterMap_cons_none (by rw [h]; rfl)]
      exact ih.cons _
    | some e =>
      rw [List.filterMap_cons_some (b := (f.key, e)) (by rw [h]; rfl)]
      exact ih.cons_cons _

theorem label_mem {α : Type} [Choice α] {kind : ChoiceKind} (h : kind.labels = Choice.labels α)
    (hall : ∀ a : α, a ∈ (Choice.all : List α)) (a : α) :
    (memberExpr kind a).OfVocabulary :=
  ofVocabulary_choice (h ▸ List.mem_map_of_mem (hall a))

/-- Each parameter of a strategy in range is written in the words of the vocabulary. -/
theorem ofVocabulary_expr? {s : Strategy} {today : Date} (h : s.InRange today) {f : Field}
    {e : Expr} (he : s.expr? f = some e) : e.OfVocabulary := by
  -- Only the quoted texts are not of the vocabulary, and they are no names.
  cases f with
  | ticker =>
    cases he
    exact ofVocabulary_quoted _
  | positionType =>
    cases he
    exact label_mem rfl (fun a => by cases a <;> decide) _
  | buyCondition =>
    cases he
    exact Condition.ofVocabulary_toExpr h.buyCondition
  | sellCondition =>
    cases he
    exact Condition.ofVocabulary_toExpr h.sellCondition
  | startDate | endDate =>
    obtain ⟨d, -, rfl⟩ := Option.map_eq_some_iff.1 he
    exact ofVocabulary_quoted _
  | stopLoss =>
    obtain ⟨x, hx, rfl⟩ := Option.map_eq_some_iff.1 he
    exact StopLoss.ofVocabulary_toExpr (h.stopLoss x hx)
  | takeProfit =>
    obtain ⟨x, hx, rfl⟩ := Option.map_eq_some_iff.1 he
    exact TakeProfit.ofVocabulary_toExpr (h.takeProfit x hx)
  | interval =>
    cases he
    exact label_mem rfl (fun a => by cases a <;> decide) _
  | period =>
    obtain ⟨x, hx, rfl⟩ := Option.map_eq_some_iff.1 he
    exact label_mem rfl (fun a => by cases a <;> decide) _
  | initialCapital =>
    cases he
    exact ofVocabulary_float h.initialCapital.1
  | orderSize =>
    cases he
    exact OrderSize.ofVocabulary_toExpr h.orderSize
  | tradeCommissions =>
    obtain ⟨x, hx, rfl⟩ := Option.map_eq_some_iff.1 he
    exact Commission.ofVocabulary_toExpr (h.tradeCommissions x hx)

/-- **A strategy in range is written in the words of the vocabulary.** -/
theorem ofVocabulary_toExpr {s : Strategy} {today : Date} (h : s.InRange today) :
    s.toExpr.OfVocabulary := by
  refine ofVocabulary_keywords ?_ fun ke hke => ?_
  · rw [keywords_eq]
    exact keys_sublist s.expr? Field.all
  · rw [keywords_eq, List.mem_filterMap] at hke
    obtain ⟨f, -, hf⟩ := hke
    obtain ⟨e, he, rfl⟩ := Option.map_eq_some_iff.1 hf
    exact ofVocabulary_expr? h he

/-- **No name in a strategy is denied.** -/
theorem find?_toExpr {s : Strategy} {today : Date} (h : s.InRange today) :
    DeniedName.find? s.toExpr = none :=
  (ofVocabulary_toExpr h).find?_eq_none

/-- **The text of a strategy is read back** as the strategy's expression. -/
theorem parse_text {s : Strategy} {today : Date} (h : s.InRange today)
    (hdepth : s.toExpr.depth ≤ Expr.depthLimit) : Expr.parse s.text = .ok s.toExpr :=
  Expr.parse_text hdepth (ofVocabulary_toExpr h).wellFormed

end Strategy

end TradeSignals
