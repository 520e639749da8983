import TradeSignals.Market.Quantity
import TradeSignals.Proofs.Decimal.Order
import TradeSignals.Proofs.Decimal.Rounding

/-!
# Doubles that are not numbers

There is one double that is not a number (`TradeSignals.NotANumber.eq_missing`), and it stands
for a number that is missing. Whatever is computed from it by one of the four operations or as a
square root is missing again, and it compares with nothing. Both are read off the operations on
unpacked doubles, which look at this case first.

What is left of a double when it is taken from itself is either a zero or missing, and so neither
more nor less than zero (`TradeSignals.NotANumber.sub_self_not_lt`).
-/

namespace TradeSignals.NotANumber

open Float.Model Quantity

theorem unpack_missing : (missing : Float).toModel.unpack = .notANumber := rfl

/-- A double that unpacks to no number is the one that is missing. -/
theorem eq_missing_of_unpack {x : Float} (h : x.toModel.unpack = .notANumber) : x = missing := by
  have hmodel : x.toModel = (missing : Float).toModel := by
    rw [← Rounding.pack_unpack x.toModel, h, ← unpack_missing, Rounding.pack_unpack]
  exact congrArg Float.ofModel hmodel

/-- **There is only one double that is not a number.** -/
theorem eq_missing {x : Float} (h : x.isNaN = true) : x = missing := by
  change x.toModel.unpack.isNaN = true at h
  refine eq_missing_of_unpack ?_
  cases hx : x.toModel.unpack <;> rw [hx] at h <;> first | rfl | cases h

/-! ### Storing numbers -/

/-- A double whose exponent field is not full is a number. -/
theorem isNaN_unpack {b : BitVec Format.binary64.numBits}
    (h : UnpackedFloat.unpackExponent b ≠ -1#11) :
    (UnpackedFloat.unpack Format.binary64 b).isNaN = false := by
  by_cases hzero : UnpackedFloat.unpackExponent b = 0#11
  · by_cases hmantissa : UnpackedFloat.unpackMantissa b = 0#52
    · rw [Rounding.unpack_zero b hzero hmantissa]
      rfl
    · obtain ⟨hpos, hu⟩ := Rounding.unpack_subnormal b hzero hmantissa
      rw [hu]
      rfl
  · obtain ⟨hpos, hu⟩ := Rounding.unpack_normal b h hzero
    rw [hu]
    rfl

/-- **A number is stored as a number**, be it as an infinity. -/
theorem isNaN_pack {f : UnpackedFloat} (hf : f.isNaN = false) :
    (Float.ofModel (pack f)).isNaN = false := by
  have hfields : ∀ (s : UnpackedFloat.Sign) (E : BitVec 11) (v : BitVec 52), E ≠ -1#11 →
      (UnpackedFloat.unpack Format.binary64
        (UnpackedFloat.packComponents Format.binary64 s E v)).isNaN = false :=
    fun s E v hE => isNaN_unpack (by rwa [UnpackedFloat.unpackExponent_packComponents])
  cases f with
  | notANumber => cases hf
  | infinity s => cases s <;> rfl
  | zero s => cases s <;> rfl
  | finite s m e hm =>
    change (UnpackedFloat.unpack Format.binary64
      (UnpackedFloat.pack Format.binary64 (.finite s m e hm))).isNaN = false
    dsimp only [UnpackedFloat.pack]
    split
    · cases s <;> rfl
    · next hfits =>
      split
      · -- A full exponent field is what the bound on the exponent rules out.
        refine hfields s _ _ fun hfull => hfits ?_
        have hfield := congrArg BitVec.toNat hfull
        rw [BitVec.toNat_ofNat] at hfield
        exact (Nat.succ_le_succ (hfield.symm.le.trans (Nat.mod_le _ _)) : 2047 + 1 ≤ _)
      · exact hfields s _ _ (by decide)

/-- The opposite of a number is a number. -/
theorem isNaN_neg {x : Float} (hx : x.isNaN = false) : (-x).isNaN = false := by
  change x.toModel.unpack.isNaN = false at hx
  refine isNaN_pack (?_ : x.toModel.unpack.neg.isNaN = false)
  cases h : x.toModel.unpack <;> rw [h] at hx <;> first | rfl | cases hx

/-! ### Computing with it -/

section Operations

variable (x : Float)

theorem missing_add : missing + x = missing := by
  show Float.ofModel (pack (.add _ (missing : Float).toModel.unpack x.toModel.unpack)) = _
  rw [unpack_missing]
  rfl

theorem add_missing : x + missing = missing := by
  show Float.ofModel (pack (.add _ x.toModel.unpack (missing : Float).toModel.unpack)) = _
  rw [unpack_missing]
  cases x.toModel.unpack <;> rfl

theorem missing_sub : missing - x = missing := by
  show Float.ofModel (pack (.sub _ (missing : Float).toModel.unpack x.toModel.unpack)) = _
  rw [unpack_missing]
  rfl

theorem sub_missing : x - missing = missing := by
  show Float.ofModel (pack (.sub _ x.toModel.unpack (missing : Float).toModel.unpack)) = _
  rw [unpack_missing]
  cases x.toModel.unpack <;> rfl

theorem missing_mul : missing * x = missing := by
  show Float.ofModel (pack (.mul _ (missing : Float).toModel.unpack x.toModel.unpack)) = _
  rw [unpack_missing]
  rfl

theorem mul_missing : x * missing = missing := by
  show Float.ofModel (pack (.mul _ x.toModel.unpack (missing : Float).toModel.unpack)) = _
  rw [unpack_missing]
  cases x.toModel.unpack <;> rfl

theorem missing_div : missing / x = missing := by
  show Float.ofModel (pack (.div _ (missing : Float).toModel.unpack x.toModel.unpack)) = _
  rw [unpack_missing]
  rfl

theorem sqrt_missing : Float.sqrt missing = missing := rfl

end Operations

/-! ### Comparing with it -/

section Order

variable (x : Float)

theorem compare_missing : x.toModel.unpack.compare (missing : Float).toModel.unpack = none := by
  rw [unpack_missing]
  cases x.toModel.unpack <;> rfl

theorem missing_compare : (missing : Float).toModel.unpack.compare x.toModel.unpack = none := by
  rw [FloatOrder.compare_swap, compare_missing]
  rfl

theorem not_lt_missing : ¬x < missing := by
  rw [FloatOrder.lt_iff, compare_missing]
  exact nofun

theorem not_missing_lt : ¬missing < x := by
  rw [FloatOrder.lt_iff, missing_compare]
  exact nofun

/-- **What is left of a double when it is taken from itself** is zero or missing. -/
theorem sub_self_eq : x - x = Float.ofInt 0 ∨ x - x = missing := by
  have hsub : x - x = .ofModel (pack (.sub _ x.toModel.unpack x.toModel.unpack)) := rfl
  rw [hsub]
  rcases x.toModel.unpack with s | _ | s | ⟨s, m, e, hm⟩
  · right; cases s <;> rfl
  · right; rfl
  · left; cases s <;> rfl
  · left
    simp only [UnpackedFloat.sub, Int.sub_self, UnpackedFloat.normalize]
    rfl

/-- It is neither more nor less than zero. -/
theorem sub_self_not_lt : ¬Float.ofInt 0 < x - x ∧ ¬x - x < Float.ofInt 0 := by
  rcases sub_self_eq x with h | h
  · rw [h]
    decide +kernel
  · rw [h]
    exact ⟨not_lt_missing _, not_missing_lt _⟩

end Order

end TradeSignals.NotANumber
