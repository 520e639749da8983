import Mathlib
import TradeSignals.Decimal.Basic

/-!
# Rounding to doubles

Core describes the arithmetic of doubles by what is done to their bits: a mantissa is
shifted to the right, one bit and then another, and of the bits that fall out two are
kept. This module says what that comes to as arithmetic of rational numbers. Every
operation that is needed here hands over a mantissa, an exponent and a word about what
has been cut off already; those three together describe one rational number, and what
comes out of rounding depends on that number alone
(`TradeSignals.Rounding.roundWithAccuracy_eq_nearest`).

The double nearest to a number is found in two steps. The *grid* of a number is the
exponent of the last bit that a double of its size can have, and the number is rounded
to a whole multiple of that. A mantissa that rounds up to one bit too many is then
shifted once more, and nothing falls out: this second step is a function of what the
first one found, so it need not be looked into to see that equal numbers give equal
doubles.
-/

namespace TradeSignals

namespace Rounding

open Float.Model UnpackedFloat

/-! ### What has been cut off -/

/-- **What an accuracy says**: how far a number lies above the whole number below it. -/
def Covers : Accuracy → ℚ → Prop
  | .exact, d => d = 0
  | .inexact .lt, d => 0 < d ∧ d < 1 / 2
  | .inexact .eq, d => d = 1 / 2
  | .inexact .gt, d => 1 / 2 < d ∧ d < 1

theorem Covers.nonneg {a : Accuracy} {d : ℚ} (h : Covers a d) : 0 ≤ d := by
  rcases a with _ | _ | _ | _ <;> simp only [Covers] at h <;> linarith

theorem Covers.lt_one {a : Accuracy} {d : ℚ} (h : Covers a d) : d < 1 := by
  rcases a with _ | _ | _ | _ <;> simp only [Covers] at h <;> linarith

/-- A mantissa with its two residual bits describes a number: the mantissa is its whole
part, and the bits say where the rest lies. -/
def Describes (em : ExtendedMantissa) (x : ℚ) : Prop :=
  ∃ d, Covers em.accuracy d ∧ x = em.mantissa + d

/-- **One shift halves the number that is described.** A bit that falls out of the
mantissa takes the place of the round bit, and the two old bits are merged. -/
theorem Describes.shiftRightOne {em : ExtendedMantissa} {x : ℚ} (h : Describes em x) :
    Describes em.shiftRightOne (x / 2) := by
  obtain ⟨m, r, s⟩ := em
  obtain ⟨d, hd, rfl⟩ := h
  have hm : (m : ℚ) = 2 * ((m / 2 : ℕ) : ℚ) + ((m % 2 : ℕ) : ℚ) := by
    exact_mod_cast (Nat.div_add_mod m 2).symm
  -- The bit that falls out counts for a half, and what was below it for half of what it was.
  refine ⟨(((m % 2 : ℕ) : ℚ) + d) / 2, ?_, ?_⟩
  · rcases Nat.mod_two_eq_zero_or_one m with h2 | h2 <;> cases r <;> cases s <;>
      simp only [ExtendedMantissa.shiftRightOne, ExtendedMantissa.accuracy, Covers, h2, bne,
        Nat.cast_zero, Nat.cast_one, Bool.or_true, Bool.or_false, Bool.not_true,
        beq_self_eq_true, Nat.reduceBEq, Bool.not_false] at hd ⊢
    all_goals first | linarith | exact ⟨by linarith, by linarith⟩
  · simp only [ExtendedMantissa.shiftRightOne]
    linarith

/-- Several shifts divide by a power of two. -/
theorem Describes.shiftRight {em : ExtendedMantissa} {x : ℚ} (h : Describes em x) (k : ℕ) :
    Describes (em >>> k) (x / 2 ^ k) := by
  induction k with
  | zero =>
    rw [pow_zero, div_one]
    exact h
  | succ k ih =>
    have h2 : x / 2 ^ (k + 1) = x / 2 ^ k / 2 := by rw [pow_succ, div_div]
    rw [h2]
    exact ih.shiftRightOne

/-- A mantissa and an accuracy describe the number that the accuracy is about. -/
theorem describes_ofMantissaAndAccuracy {m : ℕ} {a : Accuracy} {d : ℚ} (h : Covers a d) :
    Describes (.ofMantissaAndAccuracy m a) (m + d) := by
  refine ⟨d, ?_, ?_⟩
  · rcases a with _ | _ | _ | _ <;> exact h
  · rcases a with _ | _ | _ | _ <;> rfl

/-! ### Rounding to a whole number -/

/-- **The whole number nearest to a number** that is not negative; of two equally near
the even one. -/
def halfEven (x : ℚ) : ℕ :=
  if Int.fract x < 1 / 2 then ⌊x⌋₊
  else if Int.fract x = 1 / 2 then ⌊x⌋₊ + ⌊x⌋₊ % 2
  else ⌊x⌋₊ + 1

@[simp] theorem halfEven_natCast (n : ℕ) : halfEven n = n := by
  rw [halfEven, Int.fract_natCast, if_pos (by norm_num), Nat.floor_natCast]

theorem floor_le_halfEven (x : ℚ) : ⌊x⌋₊ ≤ halfEven x := by
  unfold halfEven
  split
  · omega
  · split <;> omega

/-- A number below one half rounds to zero. -/
theorem halfEven_eq_zero {x : ℚ} (h0 : 0 ≤ x) (h : x < 1 / 2) : halfEven x = 0 := by
  have hf : Int.fract x = x := Int.fract_eq_self.2 ⟨h0, by linarith⟩
  rw [halfEven, hf, if_pos h]
  exact Nat.floor_eq_zero.2 (by linarith)

/-- **The rounded mantissa is the nearest whole number** to what is described. -/
theorem Describes.roundedMantissa {em : ExtendedMantissa} {x : ℚ} (h : Describes em x) :
    em.roundedMantissa = halfEven x := by
  obtain ⟨m, r, s⟩ := em
  obtain ⟨d, hd, rfl⟩ := h
  have hfract : Int.fract ((m : ℚ) + d) = d := by
    rw [Int.fract_natCast_add]
    exact Int.fract_eq_self.2 ⟨hd.nonneg, hd.lt_one⟩
  have hfloor : ⌊(m : ℚ) + d⌋₊ = m := by
    rw [add_comm, Nat.floor_add_natCast hd.nonneg, Nat.floor_eq_zero.2 hd.lt_one, Nat.zero_add]
  rw [halfEven, hfract, hfloor]
  -- The two bits tell the four cases of the accuracy apart.
  cases r <;> cases s <;>
    simp only [ExtendedMantissa.roundedMantissa, ExtendedMantissa.accuracy,
      Accuracy.roundToNearestEven, Covers] at hd ⊢
  · rw [if_pos (by linarith)]
  · rw [if_pos hd.2]
  · rw [if_neg (by linarith), if_pos hd]
  · rw [if_neg (by linarith [hd.1]), if_neg (by linarith [hd.1])]

/-! ### The grid of a number -/

/-- **The grid of a positive number**: the exponent of the last bit of a double of its
size. Doubles have fifty-three bits, and none below the last one of the smallest. -/
def grid (v : ℚ) : ℤ := max (Int.log 2 v - 52) (-1074)

theorem targetExponent_eq (m : ℕ) (e : ℤ) :
    Format.binary64.targetExponent (totalExponent m e) = max (m.log2 + e - 52) (-1074) := by
  simp only [Format.targetExponent, totalExponent, Format.mantissaBits, Format.minExponent]
  norm_num
  omega

/-- Between two powers of two that follow each other the logarithm is known. -/
theorem log_eq_of_le_of_lt {v : ℚ} {z : ℤ} (h1 : (2 : ℚ) ^ z ≤ v) (h2 : v < 2 ^ (z + 1)) :
    Int.log 2 v = z := by
  have h0 : 0 < v := lt_of_lt_of_le (by positivity) h1
  have hle : z ≤ Int.log 2 v := (Int.zpow_le_iff_le_log (by norm_num) h0).1 (by exact_mod_cast h1)
  have hlt : Int.log 2 v < z + 1 :=
    (Int.lt_zpow_iff_log_lt (by norm_num) h0).1 (by exact_mod_cast h2)
  omega

theorem two_pow_log2_le {m : ℕ} (h : m ≠ 0) : (2 : ℚ) ^ (m.log2 : ℤ) ≤ m := by
  rw [zpow_natCast]
  exact_mod_cast Nat.log2_self_le h

theorem lt_two_pow_log2 (m : ℕ) : ((m : ℚ) + 1) ≤ 2 ^ ((m.log2 : ℤ) + 1) := by
  have h : m + 1 ≤ 2 ^ (m.log2 + 1) := Nat.lt_log2_self
  have hc : ((m.log2 : ℤ) + 1) = ((m.log2 + 1 : ℕ) : ℤ) := by push_cast; ring
  rw [hc, zpow_natCast]
  exact_mod_cast h

/-- The logarithm of a number, from a mantissa with its exponent and what is cut off. -/
theorem log_mul_zpow {m : ℕ} {d : ℚ} (hm : m ≠ 0) (h0 : 0 ≤ d) (h1 : d < 1) (e : ℤ) :
    Int.log 2 ((m + d) * (2 : ℚ) ^ e) = m.log2 + e := by
  have hpos : (0 : ℚ) < 2 ^ e := by positivity
  have hlow := two_pow_log2_le hm
  have hhigh := lt_two_pow_log2 m
  refine log_eq_of_le_of_lt ?_ ?_
  · rw [zpow_add₀ (by norm_num)]
    exact mul_le_mul_of_nonneg_right (by linarith) hpos.le
  · rw [show (m.log2 : ℤ) + e + 1 = (m.log2 + 1) + e by ring, zpow_add₀ (by norm_num)]
    exact mul_lt_mul_of_pos_right (by linarith) hpos

/-- **The target of a shift is the grid of the number**, as long as nothing that matters
has been cut off before. Only below the smallest grid may the mantissa be empty. -/
theorem targetExponent_eq_grid {m : ℕ} {e : ℤ} {d : ℚ} (h0 : 0 ≤ d) (h1 : d < 1)
    (hpos : 0 < (m + d) * (2 : ℚ) ^ e) (he : e ≤ grid ((m + d) * (2 : ℚ) ^ e)) :
    Format.binary64.targetExponent (totalExponent m e) = grid ((m + d) * (2 : ℚ) ^ e) := by
  rw [targetExponent_eq]
  rcases eq_or_ne m 0 with rfl | hm
  · have hlt : ((0 : ℕ) + d) * (2 : ℚ) ^ e < 2 ^ e := by
      have h2 : (0 : ℚ) < 2 ^ e := by positivity
      rw [Nat.cast_zero, zero_add]
      exact mul_lt_of_lt_one_left h2 h1
    have hlog : Int.log 2 (((0 : ℕ) + d) * (2 : ℚ) ^ e) < e :=
      (Int.lt_zpow_iff_log_lt (by norm_num) hpos).1 (by exact_mod_cast hlt)
    simp only [grid, Nat.log2_zero, Nat.cast_zero] at he hlog ⊢
    omega
  · rw [grid, log_mul_zpow hm h0 h1]

/-! ### The nearest double -/

/-- The second step of rounding: a mantissa with one bit too many is shifted. -/
def carry (s : Sign) (m : ℕ) (e : ℤ) : UnpackedFloat :=
  let (em, e) := shiftToTargetExponent Format.binary64 m e .exact
  if h : em.mantissa = 0 then .zero s else .finite s em.mantissa e (Nat.pos_of_ne_zero h)

/-- **The double nearest to a positive number**, with a sign. -/
def nearest (s : Sign) (v : ℚ) : UnpackedFloat :=
  carry s (halfEven (v / 2 ^ grid v)) (grid v)

/-- **Rounding depends on the number alone**: a mantissa, an exponent and an accuracy
are rounded to the double nearest to the number that they stand for. -/
theorem roundWithAccuracy_eq_nearest {s : Sign} {m : ℕ} {e : ℤ} {a : Accuracy} {d v : ℚ}
    (ha : Covers a d) (hv : v = (m + d) * 2 ^ e) (hpos : 0 < v) (he : e ≤ grid v) :
    roundWithAccuracy Format.binary64 s m e a = nearest s v := by
  subst hv
  have ht := targetExponent_eq_grid ha.nonneg ha.lt_one hpos he
  have hd := (describes_ofMantissaAndAccuracy (m := m) ha).shiftRight
    (grid ((m + d) * 2 ^ e) - e).toNat
  have hx : ((m : ℚ) + d) / 2 ^ (grid ((m + d) * 2 ^ e) - e).toNat =
      (m + d) * 2 ^ e / 2 ^ grid ((m + d) * 2 ^ e) := by
    have hk : ((grid ((m + d) * 2 ^ e) - e).toNat : ℤ) = grid ((m + d) * 2 ^ e) - e := by omega
    rw [← zpow_natCast, hk, zpow_sub₀ (by norm_num)]
    field_simp
  have hfst : e + ((grid ((m + d) * 2 ^ e) - e).toNat : ℤ) = grid ((m + d) * 2 ^ e) := by omega
  have hshift : shiftToTargetExponent Format.binary64 m e a =
      (ExtendedMantissa.ofMantissaAndAccuracy m a >>> (grid ((m + d) * 2 ^ e) - e).toNat,
        grid ((m + d) * 2 ^ e)) := by
    simp only [shiftToTargetExponent, shiftToExponent, ht, hfst]
  rw [hx] at hd
  rw [nearest, ← hd.roundedMantissa]
  simp only [roundWithAccuracy, hshift, carry]

/-! ### Products and quotients -/

theorem mul_finite {s₁ s₂ : Sign} {m₁ m₂ : ℕ} {e₁ e₂ : ℤ} {h₁ : 0 < m₁} {h₂ : 0 < m₂}
    (he : e₁ + e₂ ≤ grid (m₁ * 2 ^ e₁ * (m₂ * 2 ^ e₂))) :
    UnpackedFloat.mul Format.binary64 (.finite s₁ m₁ e₁ h₁) (.finite s₂ m₂ e₂ h₂) =
      nearest (s₁ * s₂) (m₁ * 2 ^ e₁ * (m₂ * 2 ^ e₂)) := by
  refine roundWithAccuracy_eq_nearest (d := 0) rfl ?_ (by positivity) he
  rw [zpow_add₀ (by norm_num)]
  push_cast
  ring

theorem covers_accuracyOfFraction {n k : ℕ} (h : n < k) :
    Covers (accuracyOfFraction n k) (n / k) := by
  have hk : (0 : ℚ) < k := by exact_mod_cast Nat.zero_lt_of_lt h
  have hlt : (n : ℚ) < k := by exact_mod_cast h
  unfold accuracyOfFraction
  split
  · next h0 => simp [Covers, h0]
  · next h0 =>
    have hn : (0 : ℚ) < n := by exact_mod_cast Nat.pos_of_ne_zero h0
    rcases lt_trichotomy (2 * n) k with hc | hc | hc
    · have hq : 2 * (n : ℚ) < k := by exact_mod_cast hc
      rw [Nat.compare_eq_lt.2 hc]
      exact ⟨by positivity, by rw [div_lt_div_iff₀ hk (by norm_num)]; linarith⟩
    · have hq : 2 * (n : ℚ) = k := by exact_mod_cast hc
      rw [Nat.compare_eq_eq.2 hc]
      exact (div_eq_div_iff hk.ne' (by norm_num)).2 (by linarith)
    · have hq : (k : ℚ) < 2 * n := by exact_mod_cast hc
      rw [Nat.compare_eq_gt.2 hc]
      exact ⟨by rw [div_lt_div_iff₀ (by norm_num) hk]; linarith, (div_lt_one hk).2 hlt⟩

/-- A quotient has at most one bit less than the difference of the two bit counts. -/
theorem log2_sub_log2_le_log_div {m₁ m₂ : ℕ} (h₁ : 0 < m₁) (h₂ : 0 < m₂) (e : ℤ) :
    (m₁.log2 : ℤ) - m₂.log2 - 1 + e ≤ Int.log 2 ((m₁ / m₂ : ℚ) * 2 ^ e) := by
  have hm₁ : (0 : ℚ) < m₁ := by exact_mod_cast h₁
  have hm₂ : (0 : ℚ) < m₂ := by exact_mod_cast h₂
  have hlow := two_pow_log2_le h₁.ne'
  have hhigh : (m₂ : ℚ) ≤ 2 ^ ((m₂.log2 : ℤ) + 1) := by linarith [lt_two_pow_log2 m₂]
  refine (Int.zpow_le_iff_le_log (by norm_num) (by positivity)).1 ?_
  rw [zpow_add₀ (by norm_num)]
  refine mul_le_mul_of_nonneg_right ?_ (by positivity)
  rw [show (m₁.log2 : ℤ) - m₂.log2 - 1 = m₁.log2 - (m₂.log2 + 1) by ring,
    zpow_sub₀ (by norm_num)]
  exact div_le_div₀ hm₁.le hlow hm₂ hhigh

/-- **A quotient is rounded correctly**, whatever the two numbers: the quotient of the
mantissas is carried on until all the bits of the grid are there. -/
theorem div_finite {s₁ s₂ : Sign} {m₁ m₂ : ℕ} {e₁ e₂ : ℤ} {h₁ : 0 < m₁} {h₂ : 0 < m₂} :
    UnpackedFloat.div Format.binary64 (.finite s₁ m₁ e₁ h₁) (.finite s₂ m₂ e₂ h₂) =
      nearest (s₁ / s₂) (m₁ * 2 ^ e₁ / (m₂ * 2 ^ e₂)) := by
  have hm₁ : (0 : ℚ) < m₁ := by exact_mod_cast h₁
  have hm₂ : (0 : ℚ) < m₂ := by exact_mod_cast h₂
  have hquot : (m₁ * 2 ^ e₁ / (m₂ * 2 ^ e₂) : ℚ) = m₁ / m₂ * 2 ^ (e₁ - e₂) := by
    rw [zpow_sub₀ (by norm_num)]
    field_simp
  simp only [UnpackedFloat.div, divCore]
  -- The dividend is shifted so far to the left that the quotient ends at the bit `t`.
  set t := min (e₁ - e₂) (Format.binary64.targetExponent
    (totalExponent m₁ e₁ - totalExponent m₂ e₂)) with ht
  have hk : ((e₁ - e₂ - t).toNat : ℤ) = e₁ - e₂ - t := by omega
  set n := m₁ <<< (e₁ - e₂ - t).toNat with hn
  have hdm : (n : ℚ) = m₂ * (n / m₂ : ℕ) + (n % m₂ : ℕ) := by
    exact_mod_cast (Nat.div_add_mod n m₂).symm
  have hnv : (n : ℚ) = m₁ * 2 ^ (e₁ - e₂ - t) := by
    rw [hn, Nat.shiftLeft_eq, ← hk, zpow_natCast]
    push_cast
    rfl
  rw [hquot]
  refine roundWithAccuracy_eq_nearest (covers_accuracyOfFraction (Nat.mod_lt n h₂)) ?_
    (by positivity) ?_
  · rw [show e₁ - e₂ = (e₁ - e₂ - t) + t by ring, zpow_add₀ (by norm_num), ← mul_assoc,
      div_mul_eq_mul_div, ← hnv, hdm]
    field_simp
  · have hlog := log2_sub_log2_le_log_div h₁ h₂ (e₁ - e₂)
    have htarget : t ≤ max (totalExponent m₁ e₁ - totalExponent m₂ e₂ - 53) (-1074) := by
      refine (min_le_right _ _).trans (le_of_eq ?_)
      simp only [Format.targetExponent, Format.mantissaBits, Format.minExponent]
      norm_num
    simp only [totalExponent] at htarget
    rw [grid]
    omega

/-! ### Numbers that are doubles -/

/-- A mantissa and an exponent of a double: the exponent is the grid of the number. -/
def OnGrid (m : ℕ) (e : ℤ) : Prop := max ((m.log2 : ℤ) + e - 52) (-1074) = e

theorem OnGrid.log2_le {m : ℕ} {e : ℤ} (h : OnGrid m e) : m.log2 ≤ 52 := by
  unfold OnGrid at h
  omega

theorem OnGrid.grid_eq {m : ℕ} {e : ℤ} (h : OnGrid m e) (hm : m ≠ 0) :
    grid (m * 2 ^ e) = e := by
  have hlog := log_mul_zpow hm le_rfl zero_lt_one e
  rw [add_zero] at hlog
  rw [grid, hlog]
  exact h

theorem carry_of_le {s : Sign} {m : ℕ} {e : ℤ} (hm : 0 < m)
    (h : max ((m.log2 : ℤ) + e - 52) (-1074) ≤ e) : carry s m e = .finite s m e hm := by
  have hk : (Format.binary64.targetExponent (totalExponent m e) - e).toNat = 0 := by
    rw [targetExponent_eq]
    omega
  have hshift : shiftToTargetExponent Format.binary64 m e .exact = (⟨m, false, false⟩, e) := by
    simp only [shiftToTargetExponent, shiftToExponent, hk, Nat.cast_zero, add_zero]
    rfl
  simp only [carry, hshift]
  rw [dif_neg hm.ne']

/-- **A number that is a double is the double nearest to it.** -/
theorem nearest_of_onGrid {s : Sign} {m : ℕ} {e : ℤ} (h : OnGrid m e) (hm : 0 < m) :
    nearest s (m * 2 ^ e) = .finite s m e hm := by
  have hx : (m : ℚ) * 2 ^ e / 2 ^ e = m := by field_simp
  rw [nearest, h.grid_eq hm.ne', hx, halfEven_natCast]
  exact carry_of_le hm h.le

/-! ### Bits -/

section Bits

variable (b : BitVec Format.binary64.numBits)

/-- The three fields of a double put together again. -/
theorem packComponents_unpack :
    packComponents Format.binary64 (Sign.ofBitVec (unpackSign b)) (unpackExponent b)
      (unpackMantissa b) = b := by
  have hsign : ∀ v : BitVec 1, (Sign.ofBitVec v).toBitVec = v := by decide
  simp only [packComponents, hsign, unpackSign, unpackExponent, unpackMantissa, BitVec.extractLsb]
  ext i hi
  grind

theorem toNat_unpackMantissa : (unpackMantissa b).toNat = b.toNat % 2 ^ 52 := by
  simp [unpackMantissa]

theorem toNat_unpackExponent : (unpackExponent b).toNat = b.toNat / 2 ^ 52 % 2 ^ 11 := by
  simp [unpackExponent, Nat.shiftRight_eq_div_pow]

/-- A mantissa with its leading bit, which doubles of full size do not store. -/
theorem toNat_one_append (v : BitVec 52) : (1#1 ++ v).toNat = v.toNat + 2 ^ 52 := by
  have h := v.isLt
  rw [BitVec.toNat_append, ← Nat.shiftLeft_add_eq_or_of_lt h, Nat.shiftLeft_eq]
  simp
  omega

theorem log2_of_full {m : ℕ} (h : m < 2 ^ 52) : (m + 2 ^ 52).log2 = 52 := by
  have h1 : 52 ≤ (m + 2 ^ 52).log2 := (Nat.le_log2 (by omega)).2 (by omega)
  have h2 : (m + 2 ^ 52).log2 < 53 := (Nat.log2_lt (by omega)).2 (by omega)
  omega

theorem log2_lt_of_lt {m : ℕ} (hm : m ≠ 0) (h : m < 2 ^ 52) : m.log2 < 52 :=
  (Nat.log2_lt hm).2 h

theorem unpackSign_packComponents (s : Sign) (E : BitVec 11) (v : BitVec 52) :
    Sign.ofBitVec (unpackSign (packComponents Format.binary64 s E v)) = s := by
  have hbit : unpackSign (packComponents Format.binary64 s E v) = s.toBitVec := by
    simp only [packComponents, unpackSign, BitVec.extractLsb]
    ext i hi
    grind
  rw [hbit]
  cases s <;> rfl

/-- The number of a double with an exponent field of its own has all its bits. -/
theorem pack_normal (s : Sign) (v : BitVec 52) (E : BitVec 11) (hE : E ≠ -1#11)
    (hpos : 0 < (1#1 ++ v).toNat) :
    UnpackedFloat.pack Format.binary64
      (.finite s (1#1 ++ v).toNat ((E.toNat : ℤ) - 1075) hpos) =
      packComponents Format.binary64 s E v := by
  have hlt := E.isLt
  have hmax : E.toNat ≠ 2047 := fun h => hE (BitVec.eq_of_toNat_eq (h.trans (by decide)))
  have hbias : ((E.toNat : ℤ) - 1075 + Format.exponentBias Format.binary64 +
      (Format.binary64.mantissaBitsWithoutImplicit : ℤ)).toNat = E.toNat := by
    change ((E.toNat : ℤ) - 1075 + (1023 : ℕ) + (52 : ℕ)).toNat = E.toNat
    omega
  have hlog : ((1#1 ++ v).toNat).log2 = 52 := by
    rw [toNat_one_append]
    exact log2_of_full v.isLt
  have hmant : BitVec.ofNat 52 (1#1 ++ v).toNat = v := by
    rw [toNat_one_append]
    refine BitVec.eq_of_toNat_eq ?_
    rw [BitVec.toNat_ofNat, Nat.add_mod_right, Nat.mod_eq_of_lt v.isLt]
  have hexp : BitVec.ofNat 11 E.toNat = E := by simp
  have hfits : ¬2 ^ 11 ≤ E.toNat + 1 := by omega
  simp only [UnpackedFloat.pack, hbias, hlog]
  rw [if_neg hfits, if_pos (by decide)]
  exact congrArg₂ (packComponents Format.binary64 s) hexp hmant

/-- The smallest doubles have an empty exponent field. -/
theorem pack_subnormal (s : Sign) (v : BitVec 52) (hpos : 0 < v.toNat) :
    UnpackedFloat.pack Format.binary64 (.finite s v.toNat (-1074) hpos) =
      packComponents Format.binary64 s 0#11 v := by
  have hbias : ((-1074 : ℤ) + Format.exponentBias Format.binary64 +
      (Format.binary64.mantissaBitsWithoutImplicit : ℤ)).toNat = 1 := by decide
  have hlog := log2_lt_of_lt hpos.ne' v.isLt
  have hsmall : ¬v.toNat.log2 + 1 = Format.binary64.mantissaBits := by
    simp only [Format.mantissaBits]
    omega
  have hmant : BitVec.ofNat 52 v.toNat = v := by simp
  simp only [UnpackedFloat.pack, hbias]
  rw [if_neg (by decide), if_neg hsmall]
  exact congrArg (packComponents Format.binary64 s 0#11) hmant

/-- What a double of full size is unpacked to. -/
theorem unpack_normal (h1 : unpackExponent b ≠ -1#11) (h2 : unpackExponent b ≠ 0#11) :
    ∃ hpos, UnpackedFloat.unpack Format.binary64 b =
      .finite (Sign.ofBitVec (unpackSign b)) (1#1 ++ unpackMantissa b).toNat
        (((unpackExponent b).toNat : ℤ) - 1075) hpos := by
  have hpos : 0 < (1#1 ++ unpackMantissa b).toNat := by
    have := toNat_one_append (unpackMantissa b)
    omega
  refine ⟨hpos, ?_⟩
  simp only [UnpackedFloat.unpack]
  rw [if_neg h1, if_neg h2]
  rfl

/-- What one of the smallest doubles is unpacked to. -/
theorem unpack_subnormal (h1 : unpackExponent b = 0#11) (h2 : unpackMantissa b ≠ 0#52) :
    ∃ hpos, UnpackedFloat.unpack Format.binary64 b =
      .finite (Sign.ofBitVec (unpackSign b)) (unpackMantissa b).toNat (-1074) hpos := by
  have hpos : 0 < (unpackMantissa b).toNat := by simpa [BitVec.toNat_pos, BitVec.pos_iff_ne_zero]
  refine ⟨hpos, ?_⟩
  simp only [UnpackedFloat.unpack, h1]
  rw [if_neg (by decide), if_pos trivial, dif_neg h2]
  rfl

/-- What a zero is unpacked to. -/
theorem unpack_zero (h1 : unpackExponent b = 0#11) (h2 : unpackMantissa b = 0#52) :
    UnpackedFloat.unpack Format.binary64 b = .zero (Sign.ofBitVec (unpackSign b)) := by
  simp only [UnpackedFloat.unpack, h1, h2]
  rfl

/-- What a double without digits is unpacked to. -/
theorem unpack_special (h : unpackExponent b = -1#11) :
    UnpackedFloat.unpack Format.binary64 b =
      if unpackMantissa b = 0#52 then .infinity (Sign.ofBitVec (unpackSign b))
      else .notANumber := by
  simp only [UnpackedFloat.unpack, h, if_true]

/-- **Packing undoes unpacking.** -/
theorem pack_unpack_bits (hv : Format.binary64.Valid b) :
    UnpackedFloat.pack Format.binary64 (UnpackedFloat.unpack Format.binary64 b) = b := by
  have hb := packComponents_unpack b
  by_cases h1 : unpackExponent b = -1#11
  · rw [unpack_special b h1]
    split
    · next h2 =>
      rw [h1, h2] at hb
      exact hb
    · next h2 => exact (hv.eq_packedNaN h1 h2).symm
  by_cases h2 : unpackExponent b = 0#11
  · by_cases h3 : unpackMantissa b = 0#52
    · rw [unpack_zero b h2 h3]
      rw [h2, h3] at hb
      exact hb
    · obtain ⟨hpos, hu⟩ := unpack_subnormal b h2 h3
      rw [hu, pack_subnormal]
      rw [h2] at hb
      exact hb
  · obtain ⟨hpos, hu⟩ := unpack_normal b h1 h2
    rw [hu, pack_normal _ _ _ h1]
    exact hb

end Bits

theorem pack_unpack (f : Float.Model) : Float.Model.pack f.unpack = f := by
  obtain ⟨bits, valid⟩ := f
  have h := pack_unpack_bits bits.toBitVec valid
  simp only [Float.Model.pack, Float.Model.unpack, h, UInt64.ofBitVec_toBitVec]

/-- A number on the grid has the fields of a double: either it is one of the smallest, or
its leading bit is left out and the exponent has a field of its own. -/
theorem OnGrid.exists_fields {m : ℕ} {e : ℤ} (h : OnGrid m e) (hm : 0 < m) (he : e ≤ 971) :
    (∃ v : BitVec 52, v ≠ 0#52 ∧ m = v.toNat ∧ e = -1074) ∨
      ∃ (v : BitVec 52) (E : BitVec 11), E ≠ -1#11 ∧ E ≠ 0#11 ∧
        m = (1#1 ++ v).toNat ∧ e = (E.toNat : ℤ) - 1075 := by
  have hself := Nat.log2_self_le hm.ne'
  have hlt := Nat.lt_log2_self (n := m)
  rcases h.log2_le.lt_or_eq with hsmall | hfull
  · have hm' : m < 2 ^ 52 :=
      hlt.trans_le (Nat.pow_le_pow_right (by norm_num) (by omega))
    have hmant : (BitVec.ofNat 52 m).toNat = m := by
      rw [BitVec.toNat_ofNat, Nat.mod_eq_of_lt hm']
    refine .inl ⟨BitVec.ofNat 52 m, ?_, hmant.symm, ?_⟩
    · intro h0
      rw [h0] at hmant
      exact hm.ne' hmant.symm
    · unfold OnGrid at h
      omega
  · -- With all its bits the mantissa leaves the exponent free, between the two limits.
    have hE : -1074 ≤ e := by
      unfold OnGrid at h
      omega
    have hexp : (BitVec.ofNat 11 (e + 1075).toNat).toNat = (e + 1075).toNat := by
      rw [BitVec.toNat_ofNat, Nat.mod_eq_of_lt (by omega)]
    have hne : ∀ n : ℕ, n ≠ (e + 1075).toNat → n < 2 ^ 11 →
        BitVec.ofNat 11 (e + 1075).toNat ≠ BitVec.ofNat 11 n := by
      intro n hn hn' hc
      rw [hc, BitVec.toNat_ofNat, Nat.mod_eq_of_lt hn'] at hexp
      exact hn hexp
    rw [hfull] at hself hlt
    refine .inr ⟨BitVec.ofNat 52 m, BitVec.ofNat 11 (e + 1075).toNat,
      hne 2047 (by omega) (by norm_num), hne 0 (by omega) (by norm_num), ?_, ?_⟩
    · rw [toNat_one_append, BitVec.toNat_ofNat]
      omega
    · rw [hexp]
      omega

/-- **Unpacking undoes packing** for a double that is not too large. -/
theorem unpack_pack_of_onGrid {s : Sign} {m : ℕ} {e : ℤ} (h : OnGrid m e) (hm : 0 < m)
    (he : e ≤ 971) :
    UnpackedFloat.unpack Format.binary64 (UnpackedFloat.pack Format.binary64 (.finite s m e hm)) =
      .finite s m e hm := by
  rcases h.exists_fields hm he with ⟨v, hv, rfl, rfl⟩ | ⟨v, E, h1, h2, rfl, rfl⟩
  · rw [pack_subnormal s v hm]
    obtain ⟨hpos, hu⟩ := unpack_subnormal (packComponents Format.binary64 s 0#11 v)
      unpackExponent_packComponents (by rw [unpackMantissa_packComponents]; exact hv)
    rw [hu]
    simp only [unpackMantissa_packComponents, unpackSign_packComponents]
  · rw [pack_normal s v E h1 hm]
    obtain ⟨hpos, hu⟩ := unpack_normal (packComponents Format.binary64 s E v)
      (by rw [unpackExponent_packComponents]; exact h1)
      (by rw [unpackExponent_packComponents]; exact h2)
    rw [hu]
    simp only [unpackMantissa_packComponents, unpackExponent_packComponents,
      unpackSign_packComponents]

theorem unpack_pack_zero (s : Sign) :
    UnpackedFloat.unpack Format.binary64 (UnpackedFloat.pack Format.binary64 (.zero s)) =
      .zero s := by
  have hu := unpack_zero (packComponents Format.binary64 s 0#11 0#52)
    unpackExponent_packComponents unpackMantissa_packComponents
  rw [unpackSign_packComponents] at hu
  exact hu

/-! ### Whole numbers -/

theorem onGrid_of_log2 {m : ℕ} {e : ℤ} (hm : m.log2 = 52) (he : -1074 ≤ e) : OnGrid m e := by
  unfold OnGrid
  omega

/-- A whole number of at most fifty-three bits, apart from a power of two, is a double
with all its bits. -/
theorem exists_onGrid {a b : ℕ} (ha : a ≠ 0) (h : a < 2 ^ 53) (hb : b ≤ 900) :
    ∃ (m : ℕ) (e : ℤ), 0 < m ∧ m.log2 = 52 ∧ -52 ≤ e ∧ e ≤ 971 ∧
      (m : ℚ) * 2 ^ (e : ℤ) = a * 2 ^ b := by
  have hlog : a.log2 < 53 := (Nat.log2_lt ha).2 h
  have hself := Nat.log2_self_le ha
  have hlt := Nat.lt_log2_self (n := a)
  refine ⟨a * 2 ^ (52 - a.log2), (b : ℤ) - (52 - a.log2 : ℕ), by positivity, ?_, by omega,
    by omega, ?_⟩
  · have h1 : 2 ^ 52 = 2 ^ a.log2 * 2 ^ (52 - a.log2) := by rw [← pow_add]; congr 1; omega
    have h2 : 2 ^ 53 = 2 ^ (a.log2 + 1) * 2 ^ (52 - a.log2) := by rw [← pow_add]; congr 1; omega
    have hge : 2 ^ 52 ≤ a * 2 ^ (52 - a.log2) := h1 ▸ Nat.mul_le_mul_right _ hself
    have hl : a * 2 ^ (52 - a.log2) < 2 ^ 53 :=
      h2 ▸ Nat.mul_lt_mul_of_pos_right hlt (by positivity)
    have h3 := (Nat.le_log2 (by omega)).2 hge
    have h4 := (Nat.log2_lt (by omega)).2 hl
    omega
  · push_cast
    rw [zpow_sub₀ (by norm_num), zpow_natCast, zpow_natCast]
    field_simp

/-- **A whole number is rounded correctly**, with any exponent. -/
theorem round_eq_nearest {s : Sign} {m : ℕ} (hm : m ≠ 0) (e : ℤ) :
    UnpackedFloat.round Format.binary64 s m e = nearest s (m * 2 ^ e) := by
  have hlog := log_mul_zpow hm le_rfl zero_lt_one e
  have hpos : (0 : ℚ) < m := by exact_mod_cast Nat.pos_of_ne_zero hm
  rw [add_zero] at hlog
  simp only [UnpackedFloat.round, decreaseExponent, targetExponent_eq]
  set k := (e - max ((m.log2 : ℤ) + e - 52) (-1074)).toNat with hk
  refine roundWithAccuracy_eq_nearest (d := 0) rfl ?_ (by positivity) ?_
  · rw [Nat.shiftLeft_eq, zpow_sub₀ (by norm_num), zpow_natCast]
    push_cast
    field_simp
    ring
  · rw [grid, hlog]
    omega

end Rounding

end TradeSignals
