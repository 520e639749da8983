import TradeSignals.Proofs.Expr.Unambiguous
import TradeSignals.Proofs.Strategy.CanonicalText

/-!
# The text of a series is a key

Series that have been read are kept under their canonical texts, so two series may not share
one. They do not, whatever their tickers and lengths are and whether or not their numbers are
finite (`TradeSignals.Series.text_injective`): a text stands for one expression, and an
expression for one series.
-/

namespace TradeSignals

open TradeSignals.Expr

theorem Study.constructor_injective {a b : Study} (h : a.constructor = b.constructor) :
    a = b := by
  cases a <;> cases b <;> first | rfl | cases h

theorem BandSide.constructor_injective {a b : BandSide} (h : a.constructor = b.constructor) :
    a = b := by
  cases a <;> cases b <;> first | rfl | cases h

theorem PriceField.label_injective {a b : PriceField}
    (h : Choice.label a = Choice.label b) : a = b := by
  revert h
  cases a <;> cases b <;> decide

theorem Retracement.label_injective {a b : Retracement}
    (h : Choice.label a = Choice.label b) : a = b := by
  revert h
  cases a <;> cases b <;> decide

/-- A call of a constructor by its parameters is without bare names if its arguments are. -/
theorem Expr.named_constructor {c : Constructor} {ps : List Expr} {ks : List (String × Expr)}
    (hkeys : (ks.map (·.1)).Sublist (c.slots.map (·.name))) (hps : ∀ e ∈ ps, e.Named)
    (hks : ∀ ke ∈ ks, ke.2.Named) : (call c.name ps ks).Named := by
  obtain ⟨hname, hslots, -⟩ := isUsable_constructor c
  refine named_call.2 ⟨⟨words_of_isUsable hname, fun ke hke => ?_⟩, hps, hks⟩
  exact (isUsable_iff.1 (hslots _ (hkeys.subset (List.mem_map_of_mem hke)))).1

namespace Series

/-- A length is written as a signed integer, and still no two are written alike. -/
theorem lengthExpr_inj {a b : UInt64} : lengthExpr a = lengthExpr b ↔ a = b := by
  refine ⟨fun h => ?_, congrArg lengthExpr⟩
  injection h with h
  injection h with h
  rw [← UInt64.toUInt64_toInt64 a, h, UInt64.toUInt64_toInt64]

/-- **An expression stands for one series only.** -/
theorem toExpr_injective {s s' : Series} (h : s.toExpr = s'.toExpr) : s = s' := by
  injection h with hname hpositional hkeywords
  have hconstructor := Constructor.name_injective hname
  -- The arguments alone say which form a series has, so only the eight pairs of one form are left.
  cases s <;> cases s' <;>
    simp [positional, ticker?, keywords, lengthExpr_inj] at hpositional hkeywords
  case constant.constant =>
    rw [hpositional]
  case price.price =>
    rw [hpositional, PriceField.label_injective hkeywords]
  case windowed.windowed =>
    rw [hpositional, Study.constructor_injective hconstructor, hkeywords]
  case obv.obv =>
    rw [hpositional]
  case macd.macd =>
    rw [hpositional, hkeywords.1, hkeywords.2]
  case macdSignal.macdSignal =>
    rw [hpositional, hkeywords.1, hkeywords.2.1, hkeywords.2.2]
  case band.band =>
    rw [hpositional, BandSide.constructor_injective hconstructor, hkeywords.1, hkeywords.2]
  case retracement.retracement =>
    rw [hpositional, Retracement.label_injective hkeywords.1, hkeywords.2]

/-- A series is written without bare names. -/
theorem named_toExpr (s : Series) : s.toExpr.Named := by
  have hint : ∀ v, (int v).Named := fun v => named_of_here (by simp) trivial
  have hmember : ∀ {kind item : String}, (member kind item).OfVocabularyHere →
      (member kind item).Named := fun h =>
    named_of_here (by simp) (OfVocabularyHere.wellFormedHere h)
  refine named_constructor s.keys_sublist ?_ ?_
  · cases s with
    | constant value => exact List.forall_mem_singleton.2 (hint value)
    | _ => exact List.forall_mem_singleton.2 (named_of_here (by simp) trivial)
  · cases s with
    | constant | obv => exact List.forall_mem_nil _
    | price ticker field =>
      refine List.forall_mem_singleton.2 (hmember (.inl ⟨.priceField, rfl, ?_⟩))
      exact List.mem_map_of_mem (by cases field <;> decide)
    | windowed => exact List.forall_mem_singleton.2 (hint _)
    | macd => simp [keywords, lengthExpr, hint]
    | macdSignal => simp [keywords, lengthExpr, hint]
    | band side ticker length deviations =>
      have hfloat : (float deviations).Named := named_of_here (by simp) trivial
      simp [keywords, lengthExpr, hint, hfloat]
    | retracement ticker level length =>
      refine List.forall_mem_cons.2 ⟨hmember (.inr ⟨rfl, ?_⟩), List.forall_mem_singleton.2 (hint _)⟩
      exact List.mem_map_of_mem (by cases level <;> decide)

/-- **No two series have the same canonical text.** -/
theorem text_injective {s s' : Series} (h : s.text = s'.text) : s = s' :=
  toExpr_injective (text_inj s.named_toExpr s'.named_toExpr h)

end Series

end TradeSignals
