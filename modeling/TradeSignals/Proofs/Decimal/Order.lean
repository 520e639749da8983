import Mathlib

/-!
# The order of doubles

Doubles are compared by their signs, exponents and mantissas. Comparing the other way
round gives the opposite answer, and only a missing number cannot be compared with
another one. So for two doubles that are numbers, one is *less than* the other exactly if
the other is *not at most* the first (`TradeSignals.FloatOrder.lt_iff_not_le`).
-/

namespace TradeSignals.FloatOrder

open Float.Model

/-- Comparing the other way round gives the opposite answer. -/
theorem compare_swap (a b : UnpackedFloat) : b.compare a = (a.compare b).map Ordering.swap := by
  have hlex : ∀ (m₁ m₂ : ℕ) (e₁ e₂ : ℤ), (compare e₂ e₁).then (compare m₂ m₁) =
      ((compare e₁ e₂).then (compare m₁ m₂)).swap := by
    intro m₁ m₂ e₁ e₂
    rw [Ordering.swap_then, Nat.compare_swap, Int.compare_swap]
  rcases a with (_ | _) | _ | (_ | _) | ⟨_ | _, m₁, e₁, h₁⟩ <;>
    rcases b with (_ | _) | _ | (_ | _) | ⟨_ | _, m₂, e₂, h₂⟩ <;>
    first
      | rfl
      | simp [UnpackedFloat.compare, hlex m₁ m₂ e₁ e₂]

/-- Only a missing number cannot be compared. -/
theorem compare_isSome {a b : UnpackedFloat} (ha : a.isNaN = false) (hb : b.isNaN = false) :
    (a.compare b).isSome = true := by
  rcases a with (_ | _) | _ | (_ | _) | ⟨_ | _, m₁, e₁, h₁⟩ <;>
    rcases b with (_ | _) | _ | (_ | _) | ⟨_ | _, m₂, e₂, h₂⟩ <;>
    first
      | rfl
      | exact Bool.noConfusion ha
      | exact Bool.noConfusion hb

theorem lt_iff {x y : Float} : x < y ↔ x.toModel.unpack.compare y.toModel.unpack = some .lt := by
  change decide (x.toModel < y.toModel) = true ↔ _
  rw [decide_eq_true_iff]
  exact beq_iff_eq

theorem le_iff {x y : Float} :
    x ≤ y ↔ (x.toModel.unpack.compare y.toModel.unpack).any (·.isLE) = true := by
  change decide (x.toModel ≤ y.toModel) = true ↔ _
  rw [decide_eq_true_iff]
  rfl

/-- A finite double is a number. -/
theorem isNaN_of_isFinite {x : Float} (hx : x.isFinite = true) : x.isNaN = false := by
  change x.toModel.unpack.isFinite = true at hx
  change x.toModel.unpack.isNaN = false
  cases h : x.toModel.unpack <;> rw [h] at hx <;> first | rfl | cases hx

/-- **Less than is not at most the other way round.** -/
theorem lt_iff_not_le {x y : Float} (hx : x.isNaN = false) (hy : y.isNaN = false) :
    x < y ↔ ¬y ≤ x := by
  obtain ⟨o, ho⟩ := Option.isSome_iff_exists.1 (compare_isSome (a := x.toModel.unpack) hx hy)
  rw [lt_iff, le_iff, compare_swap x.toModel.unpack, ho]
  cases o <;> decide

theorem not_le_of_lt {x y : Float} (h : x < y) : ¬y ≤ x := by
  rw [le_iff, compare_swap x.toModel.unpack, lt_iff.1 h]
  decide

theorem not_lt_of_le {x y : Float} (h : x ≤ y) : ¬y < x :=
  fun hlt => not_le_of_lt hlt h

end TradeSignals.FloatOrder
