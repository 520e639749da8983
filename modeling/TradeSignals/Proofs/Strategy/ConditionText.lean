import Mathlib.Logic.Function.Defs
import TradeSignals.Proofs.Strategy.SeriesText

/-!
# The text of a condition is a key

What is known of the texts of series holds of the texts of conditions, however deep junctions lie
inside each other: no two conditions share one (`TradeSignals.canonicalTexts_injective`). Nothing is
asked of their numbers. A condition that no text is read as, with a length of zero, a ticker with
a quote in it or a junction of nothing, has a text of its own like any other.
-/

namespace TradeSignals

open TradeSignals.Expr

theorem Relation.constructor_injective {a b : Relation} (h : a.constructor = b.constructor) :
    a = b := by
  cases a <;> cases b <;> first | rfl | cases h

theorem Direction.constructor_injective {a b : Direction} (h : a.constructor = b.constructor) :
    a = b := by
  cases a <;> cases b <;> first | rfl | cases h

namespace Condition

/-- A list is known by the expressions of its members if each of these is. -/
theorem toExprs_injective {cs cs' : List Condition}
    (hcs : ∀ c ∈ cs, ∀ c' : Condition, c.toExpr = c'.toExpr → c = c')
    (h : toExprs cs = toExprs cs') : cs = cs' := by
  induction cs generalizing cs' with
  | nil =>
    cases cs' with
    | nil => rfl
    | cons c' cs' => cases h
  | cons c cs ih =>
    cases cs' with
    | nil => cases h
    | cons c' cs' =>
      obtain ⟨hhead, htail⟩ := List.cons.inj h
      rw [hcs c List.mem_cons_self c' hhead,
        ih (fun d hd => hcs d (List.mem_cons_of_mem c hd)) htail]

/-- **An expression stands for one condition only.** -/
theorem toExpr_injective {c c' : Condition} (h : c.toExpr = c'.toExpr) : c = c' := by
  -- The keywords alone say which form a condition has, but for the two junctions, which have none.
  induction c using induct generalizing c' with
  | comparison relation a b =>
    cases c' <;> simp only [toExpr, call.injEq, List.cons.injEq, Prod.mk.injEq, reduceCtorEq,
      and_false, false_and, String.reduceEq] at h
    obtain ⟨hname, -, ⟨-, ha⟩, ⟨-, hb⟩, -⟩ := h
    rw [Relation.constructor_injective (Constructor.name_injective hname),
      Series.toExpr_injective ha, Series.toExpr_injective hb]
  | all cs ih =>
    cases c' <;> simp only [toExpr, call.injEq, reduceCtorEq, and_false] at h
    · rw [toExprs_injective (fun c hc c' => ih c hc) h.2.1]
    · exact nomatch Constructor.name_injective h.1
  | any cs ih =>
    cases c' <;> simp only [toExpr, call.injEq, reduceCtorEq, and_false] at h
    · exact nomatch Constructor.name_injective h.1
    · rw [toExprs_injective (fun c hc c' => ih c hc) h.2.1]
  | after base days ih =>
    cases c' <;> simp only [toExpr, call.injEq, List.cons.injEq, Prod.mk.injEq, reduceCtorEq,
      and_false, false_and, String.reduceEq] at h
    obtain ⟨-, -, ⟨-, hbase⟩, ⟨-, hdays⟩, -⟩ := h
    rw [ih hbase, Series.lengthExpr_inj.1 hdays]
  | changeOver s percent days =>
    cases c' <;> simp only [toExpr, call.injEq, List.cons.injEq, Prod.mk.injEq, reduceCtorEq,
      and_false, false_and, String.reduceEq] at h
    obtain ⟨-, -, ⟨-, hs⟩, ⟨-, hpercent⟩, ⟨-, hdays⟩, -⟩ := h
    injection hpercent with hpercent
    injection hpercent with hpercent
    rw [Series.toExpr_injective hs, hpercent, Series.lengthExpr_inj.1 hdays]
  | change s percent =>
    cases c' <;> simp only [toExpr, call.injEq, List.cons.injEq, Prod.mk.injEq, reduceCtorEq,
      and_false, false_and, String.reduceEq] at h
    obtain ⟨-, -, ⟨-, hs⟩, ⟨-, hpercent⟩, -⟩ := h
    injection hpercent with hpercent
    injection hpercent with hpercent
    rw [Series.toExpr_injective hs, hpercent]
  | trend direction s days =>
    cases c' <;> simp only [toExpr, call.injEq, List.cons.injEq, Prod.mk.injEq, reduceCtorEq,
      and_false, false_and, String.reduceEq] at h
    obtain ⟨hname, -, ⟨-, hs⟩, ⟨-, hdays⟩, -⟩ := h
    rw [Direction.constructor_injective (Constructor.name_injective hname),
      Series.toExpr_injective hs, Series.lengthExpr_inj.1 hdays]

/-- A condition is written without bare names. -/
theorem named_toExpr (c : Condition) : c.toExpr.Named := by
  have hint : ∀ v, (int v).Named := fun v => named_of_here (by simp) trivial
  have hfloat : ∀ x, (float x).Named := fun x => named_of_here (by simp) trivial
  induction c using induct with
  | comparison relation a b =>
    refine named_constructor (by cases relation <;> exact .refl _) (by simp) ?_
    simp [Series.named_toExpr]
  | all cs ih | any cs ih =>
    refine named_constructor (List.nil_sublist _) ?_ (by simp)
    rw [toExprs_eq]
    exact List.forall_mem_map.2 ih
  | after base days ih =>
    refine named_constructor (.refl _) (by simp) ?_
    simp [ih, Series.lengthExpr, hint]
  | changeOver s percent days =>
    refine named_constructor (.refl _) (by simp) ?_
    simp [Series.named_toExpr, hfloat, Series.lengthExpr, hint]
  | change s percent =>
    refine named_constructor (.refl _) (by simp) ?_
    simp [Series.named_toExpr, hfloat]
  | trend direction s days =>
    refine named_constructor (by cases direction <;> exact .refl _) (by simp) ?_
    simp [Series.named_toExpr, Series.lengthExpr, hint]

end Condition

/-- **No two series and no two conditions have the same canonical text**, whatever their tickers,
lengths and numbers are. Doubles are told apart as they are stored, so two zeros of different signs
are written differently. -/
theorem canonicalTexts_injective :
    Function.Injective Series.text ∧ Function.Injective Condition.text :=
  ⟨fun _ _ h => Series.text_injective h, fun c c' h =>
    Condition.toExpr_injective (text_inj c.named_toExpr c'.named_toExpr h)⟩

-- Zeros of different signs, a ticker with a quote, and a length that is written as a negative one.
example : (Series.band .upper "A'B" (-1) (-0.0)).text =
    "BBANDS_UPPER('A\\'B', length=-1, std_dev=-0.0)" := by decide +kernel

end TradeSignals
