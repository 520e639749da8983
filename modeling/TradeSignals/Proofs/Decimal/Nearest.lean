import TradeSignals.Decimal.Layout
import TradeSignals.Proofs.Decimal.Order
import TradeSignals.Proofs.Decimal.Rounding

/-!
# Decimals and the doubles nearest to them

A decimal is read as the double nearest to its value. Core's conversion goes two ways:
with few digits and a small power of ten it multiplies or divides two doubles that are
exact, otherwise it works with whole numbers of any size, and far outside of the range
of doubles it does not even try. All of these give the nearest double
(`TradeSignals.Decimal.toFloat_eq_nearest`), so what a decimal is read as depends on its
value and not on how many zeros it is written with.

From this it follows that the shortest decimal of a double reads back: either the search
found one that does, or it gave up and took all the digits, whose value is the double
itself.
-/

namespace TradeSignals

namespace Rounding

open Float.Model UnpackedFloat

/-! ### Numbers far out -/

theorem carry_eq_finite {s : Sign} {m : ℕ} {e : ℤ} (hm : 0 < m) (he : -1074 ≤ e) :
    ∃ m' e' hm', carry s m e = .finite s m' e' hm' ∧ e ≤ e' := by
  set k := (Format.binary64.targetExponent (totalExponent m e) - e).toNat with hk
  have hshift : shiftToTargetExponent Format.binary64 m e .exact =
      (ExtendedMantissa.ofMantissaAndAccuracy m .exact >>> k, e + k) := rfl
  have hle : k ≤ m.log2 := by
    rw [targetExponent_eq] at hk
    omega
  obtain ⟨d, hd, hv⟩ := (describes_ofMantissaAndAccuracy (m := m) (a := .exact) rfl).shiftRight k
  have hone : 1 ≤ ((m : ℚ) + 0) / 2 ^ k := by
    rw [add_zero, le_div_iff₀ (by positivity), one_mul]
    exact_mod_cast (Nat.pow_le_pow_right (by norm_num) hle).trans (Nat.log2_self_le hm.ne')
  have hne : (ExtendedMantissa.ofMantissaAndAccuracy m .exact >>> k).mantissa ≠ 0 := by
    intro h0
    rw [h0, Nat.cast_zero, zero_add] at hv
    linarith [hd.lt_one]
  refine ⟨_, e + k, Nat.pos_of_ne_zero hne, ?_, by omega⟩
  simp only [carry, hshift]
  rw [dif_neg hne]

/-- **A number that is too large for a double is infinite** once it is stored. -/
theorem pack_nearest_of_large {s : Sign} {v : ℚ} (h : 2 ^ (1024 : ℤ) ≤ v) :
    UnpackedFloat.pack Format.binary64 (nearest s v) = packedInfinity Format.binary64 s := by
  have h0 : 0 < v := lt_of_lt_of_le (by positivity) h
  have hlog : 1024 ≤ Int.log 2 v :=
    (Int.zpow_le_iff_le_log (by norm_num) h0).1 (by exact_mod_cast h)
  have hself : (2 : ℚ) ^ Int.log 2 v ≤ v := by exact_mod_cast Int.zpow_log_le_self (by norm_num) h0
  have hgrid : grid v = Int.log 2 v - 52 := by
    rw [grid]
    omega
  have hone : 1 ≤ v / 2 ^ grid v := by
    rw [le_div_iff₀ (by positivity), one_mul, hgrid]
    exact (zpow_le_zpow_right₀ (by norm_num) (by omega)).trans hself
  have hm : 0 < halfEven (v / 2 ^ grid v) :=
    lt_of_lt_of_le ((Nat.floor_pos).2 hone) (floor_le_halfEven _)
  obtain ⟨m', e', hm', hc, he'⟩ := carry_eq_finite (s := s) hm (by omega : -1074 ≤ grid v)
  have hbias : (e' + Format.exponentBias Format.binary64 +
      (Format.binary64.mantissaBitsWithoutImplicit : ℤ)).toNat = (e' + 1075).toNat := by
    change (e' + (1023 : ℕ) + (52 : ℕ)).toNat = (e' + 1075).toNat
    omega
  have hfull : 2 ^ 11 ≤ (e' + 1075).toNat + 1 := by omega
  rw [nearest, hc]
  simp only [UnpackedFloat.pack, hbias]
  rw [if_pos hfull]

/-- **A number that is too small for a double is zero.** -/
theorem nearest_of_small {s : Sign} {v : ℚ} (h0 : 0 < v) (h : v < 2 ^ (-1075 : ℤ)) :
    nearest s v = .zero s := by
  have hlog : Int.log 2 v < -1075 :=
    (Int.lt_zpow_iff_log_lt (by norm_num) h0).1 (by exact_mod_cast h)
  have hgrid : grid v = -1074 := by
    rw [grid]
    omega
  have hlt : v / 2 ^ (-1074 : ℤ) < 1 / 2 := by
    rw [div_lt_iff₀ (by positivity)]
    refine h.trans_le (le_of_eq ?_)
    rw [show (-1075 : ℤ) = -1 + -1074 by norm_num, zpow_add₀ (by norm_num)]
    norm_num
  rw [nearest, hgrid, halfEven_eq_zero (by positivity) hlt]
  rfl

/-! ### Whole numbers as doubles -/

/-- A whole number below the first bit that is lost, as a double. -/
theorem toFloat_toUInt64 {n : ℕ} (h0 : n ≠ 0) (h : n < 2 ^ 53) :
    n.toUInt64.toFloat = .ofModel (.pack (nearest .positive n)) := by
  have hn : n.toUInt64.toNat = n := by
    rw [Nat.toUInt64, UInt64.toNat_ofNat', Nat.mod_eq_of_lt (by omega)]
  have hcmp : compare (n : ℤ) 0 = .gt := by
    rw [compare_gt_iff_gt]
    omega
  have hround := round_eq_nearest (s := .positive) h0 0
  rw [zpow_zero, mul_one] at hround
  simp only [UInt64.toFloat, Float.Model.ofUInt64, UnpackedFloat.ofUInt64, UnpackedFloat.ofNat,
    UnpackedFloat.ofInt, UnpackedFloat.normalize, hn, hcmp, Int.toNat_natCast, hround]

/-- The table of powers of ten holds the doubles nearest to them, which are exact. -/
theorem exactlyRepresentablePowersOfTen_eq : ∀ e : Fin 23,
    getElem Float.exactlyRepresentablePowersOfTen e.val (by
      simp [Float.exactlyRepresentablePowersOfTen]) =
      .ofModel (.pack (UnpackedFloat.round Format.binary64 .positive (10 ^ e.val) 0)) := by
  decide +kernel

/-- **An exact number is unpacked to itself**, with all its bits. -/
theorem unpack_nearest {a b : ℕ} (ha : a ≠ 0) (h : a < 2 ^ 53) (hb : b ≤ 900) :
    ∃ (m : ℕ) (e : ℤ) (hm : 0 < m), m.log2 = 52 ∧ (m : ℚ) * 2 ^ e = a * 2 ^ b ∧
      (Float.Model.pack (nearest .positive (a * 2 ^ b))).unpack = .finite .positive m e hm := by
  obtain ⟨m, e, hm, hlog, hlo, hhi, hv⟩ := exists_onGrid ha h hb
  refine ⟨m, e, hm, hlog, hv, ?_⟩
  have hg := onGrid_of_log2 hlog (by omega : -1074 ≤ e)
  rw [← hv, nearest_of_onGrid hg hm]
  exact unpack_pack_of_onGrid hg hm hhi

/-- A product with enough bits has none below its grid. -/
theorem add_le_grid_mul {m₁ m₂ : ℕ} {e₁ e₂ : ℤ} (h₁ : 0 < m₁) (h₂ : 0 < m₂)
    (h : 52 ≤ m₁.log2 + m₂.log2) : e₁ + e₂ ≤ grid (m₁ * 2 ^ e₁ * (m₂ * 2 ^ e₂)) := by
  have hm₁ : (0 : ℚ) < m₁ := by exact_mod_cast h₁
  have hm₂ : (0 : ℚ) < m₂ := by exact_mod_cast h₂
  have hle : (2 : ℚ) ^ ((m₁.log2 : ℤ) + e₁ + (m₂.log2 + e₂)) ≤ m₁ * 2 ^ e₁ * (m₂ * 2 ^ e₂) := by
    rw [zpow_add₀ (by norm_num), zpow_add₀ (by norm_num), zpow_add₀ (by norm_num)]
    refine mul_le_mul ?_ ?_ (by positivity) (by positivity)
    · exact mul_le_mul_of_nonneg_right (two_pow_log2_le h₁.ne') (by positivity)
    · exact mul_le_mul_of_nonneg_right (two_pow_log2_le h₂.ne') (by positivity)
  have hlog : (m₁.log2 : ℤ) + e₁ + (m₂.log2 + e₂) ≤ Int.log 2 (m₁ * 2 ^ e₁ * (m₂ * 2 ^ e₂) : ℚ) :=
    (Int.zpow_le_iff_le_log (by norm_num) (by positivity)).1 (by exact_mod_cast hle)
  rw [grid]
  omega

theorem pow_ten_eq (e : ℕ) : (10 : ℚ) ^ e = ((5 ^ e : ℕ) : ℚ) * 2 ^ e := by
  rw [show (10 : ℚ) = 5 * 2 by norm_num, mul_pow]
  push_cast
  rfl

/-- A number below the first bit that is lost and a small power of ten as doubles. -/
theorem exists_factors {n e : ℕ} (h0 : n ≠ 0) (h : n < 2 ^ 53) (he : e ≤ 22) :
    ∃ (m₁ m₂ : ℕ) (e₁ e₂ : ℤ) (h₁ : 0 < m₁) (h₂ : 0 < m₂),
      m₁.log2 = 52 ∧ m₂.log2 = 52 ∧ (m₁ : ℚ) * 2 ^ e₁ = n ∧ (m₂ : ℚ) * 2 ^ e₂ = 10 ^ e ∧
      n.toUInt64.toFloat.toModel.unpack = .finite .positive m₁ e₁ h₁ ∧
      (getElem Float.exactlyRepresentablePowersOfTen e (by
        simp [Float.exactlyRepresentablePowersOfTen]; omega)).toModel.unpack =
        .finite .positive m₂ e₂ h₂ := by
  have h5 : (5 : ℕ) ^ e < 2 ^ 53 :=
    (Nat.pow_le_pow_right (by norm_num) he).trans_lt (by norm_num)
  obtain ⟨m₁, e₁, h₁, hl₁, hv₁, hu₁⟩ := unpack_nearest h0 h (b := 0) (by omega)
  obtain ⟨m₂, e₂, h₂, hl₂, hv₂, hu₂⟩ := unpack_nearest (pow_ne_zero e (by norm_num)) h5
    (b := e) (by omega)
  rw [pow_zero, mul_one] at hv₁ hu₁
  rw [← pow_ten_eq] at hv₂ hu₂
  have htable := exactlyRepresentablePowersOfTen_eq ⟨e, by omega⟩
  have hround := round_eq_nearest (s := .positive) (pow_ne_zero e (by norm_num : 10 ≠ 0)) 0
  refine ⟨m₁, m₂, e₁, e₂, h₁, h₂, hl₁, hl₂, hv₁, hv₂, ?_, ?_⟩
  · rw [toFloat_toUInt64 h0 h]
    exact hu₁
  · rw [htable, hround, zpow_zero, mul_one]
    push_cast
    exact hu₂

end Rounding

namespace Decimal

open Float.Model UnpackedFloat Rounding

/-- The value of a decimal. -/
def value (d : Decimal) : ℚ := d.significand * 10 ^ d.exponent

/-- Decimals with few digits and a small power of ten are read by one operation. -/
theorem ofScientific_of_small {n e : ℕ} (neg : Bool) (h0 : n ≠ 0) (h : n < 2 ^ 53)
    (he : e ≤ 22) :
    Float.ofScientific n neg e = .ofModel (.pack (nearest .positive
      (if neg then (n : ℚ) / 10 ^ e else n * 10 ^ e))) := by
  obtain ⟨m₁, m₂, e₁, e₂, h₁, h₂, hl₁, hl₂, hv₁, hv₂, hu₁, hu₂⟩ := exists_factors h0 h he
  rw [Float.ofScientific, dif_pos ⟨h, he⟩]
  cases neg with
  | false =>
    have hgrid := @add_le_grid_mul m₁ m₂ e₁ e₂ h₁ h₂ (by omega)
    show Float.ofModel
      (.pack (UnpackedFloat.mul _ (Float.Model.unpack _) (Float.Model.unpack _))) = _
    rw [hu₁, hu₂, mul_finite hgrid, hv₁, hv₂]
    rfl
  | true =>
    show Float.ofModel
      (.pack (UnpackedFloat.div _ (Float.Model.unpack _) (Float.Model.unpack _))) = _
    rw [hu₁, hu₂, div_finite, hv₁, hv₂]
    rfl

theorem ten_zpow_le {e : ℤ} (h : e ≤ 0) : (10 : ℚ) ^ e ≤ 2 ^ e := by
  obtain ⟨n, rfl⟩ : ∃ n : ℕ, e = -n := ⟨e.natAbs, by omega⟩
  rw [zpow_neg, zpow_neg, zpow_natCast, zpow_natCast]
  exact inv_anti₀ (by positivity) (pow_le_pow_left₀ (by norm_num) (by norm_num) n)

/-- A power of ten that core does not compute is out of the range of doubles. -/
theorem two_pow_le_mul_ten_zpow {n : ℕ} (h0 : n ≠ 0) {e : ℤ} (he : 2 ^ 11 < e) :
    (2 : ℚ) ^ (1024 : ℤ) ≤ n * 10 ^ e := by
  have hn : (1 : ℚ) ≤ n := by exact_mod_cast Nat.pos_of_ne_zero h0
  calc (2 : ℚ) ^ (1024 : ℤ) ≤ 10 ^ (1024 : ℤ) :=
        zpow_le_zpow_left₀ (by norm_num) (by norm_num) (by norm_num)
    _ ≤ 10 ^ e := zpow_le_zpow_right₀ (by norm_num) (by omega)
    _ ≤ n * 10 ^ e := le_mul_of_one_le_left (by positivity) hn

/-- A number that core does not divide by a power of ten is below the smallest double. -/
theorem mul_ten_zpow_lt_two_pow {n : ℕ} {e : ℤ} (he : e < -(2 ^ 11 + (n.log2 : ℤ))) :
    (n : ℚ) * 10 ^ e < 2 ^ (-1075 : ℤ) := by
  have hten := ten_zpow_le (by omega : e ≤ 0)
  have hlt : (n : ℚ) < 2 ^ ((n.log2 : ℤ) + 1) := by linarith [lt_two_pow_log2 n]
  calc (n : ℚ) * 10 ^ e < 2 ^ ((n.log2 : ℤ) + 1) * 2 ^ e :=
        mul_lt_mul_of_lt_of_le_of_nonneg_of_pos hlt hten (by positivity) (by positivity)
    _ = 2 ^ ((n.log2 : ℤ) + 1 + e) := (zpow_add₀ (by norm_num) _ _).symm
    _ ≤ 2 ^ (-1075 : ℤ) := zpow_le_zpow_right₀ (by norm_num) (by omega)

/-- A number is padded with empty bits before it is multiplied, so that none is lost. -/
theorem log2_padded {n : ℕ} (h0 : n ≠ 0) : 52 ≤ (n <<< 53).log2 := by
  rw [Nat.shiftLeft_eq]
  refine (Nat.le_log2 (by positivity)).2 ?_
  exact (Nat.pow_le_pow_right (by norm_num) (by norm_num)).trans
    (Nat.le_mul_of_pos_left _ (Nat.pos_of_ne_zero h0))

/-- The empty bits are taken back by the exponent. -/
theorem padded_mul_pow (n k : ℕ) :
    ((n <<< 53 : ℕ) : ℚ) * 2 ^ (-53 : ℤ) * ((10 ^ k : ℕ) * 2 ^ (0 : ℤ)) = n * 10 ^ (k : ℤ) := by
  have hcancel : ((2 ^ 53 : ℕ) : ℚ) * 2 ^ (-53 : ℤ) = 1 := by norm_num
  rw [Nat.shiftLeft_eq, zpow_natCast, zpow_zero, mul_one, Nat.cast_mul, mul_assoc (n : ℚ),
    hcancel, mul_one, Nat.cast_pow, Nat.cast_ofNat]

/-- **Whole numbers of any size are read correctly**: where core does not compute, the
number is out of the range of doubles. -/
theorem ofScientific_eq_nearest {n : ℕ} (h0 : n ≠ 0) (e : ℤ) :
    Float.Model.ofScientific n e = .pack (nearest .positive (n * 10 ^ e)) := by
  have hn : (0 : ℚ) < n := by exact_mod_cast Nat.pos_of_ne_zero h0
  simp only [Float.Model.ofScientific, UnpackedFloat.ofScientific]
  rw [dif_neg h0]
  by_cases hlarge : e > 2 ^ 11
  · have hpack := pack_nearest_of_large (s := .positive) (two_pow_le_mul_ten_zpow h0 hlarge)
    rw [if_pos hlarge]
    simp only [Float.Model.pack, hpack]
    rfl
  rw [if_neg hlarge]
  by_cases hsmall : e < -(2 ^ 11 + (n.log2 : ℤ))
  · rw [if_pos hsmall, nearest_of_small (by positivity) (mul_ten_zpow_lt_two_pow hsmall)]
  rw [if_neg hsmall]
  by_cases hpos : 0 ≤ e
  · -- A power of ten that is not too large multiplies.
    obtain ⟨k, rfl⟩ : ∃ k : ℕ, e = k := ⟨e.toNat, by omega⟩
    have h53 : 0 < n <<< 53 := by
      rw [Nat.shiftLeft_eq]
      positivity
    rw [if_pos hpos]
    refine congrArg Float.Model.pack
      ((mul_finite ?_).trans (congrArg (nearest _) (padded_mul_pow n k)))
    exact add_le_grid_mul h53 (Nat.pow_pos (by norm_num)) (le_add_right (log2_padded h0))
  · -- A negative one divides, which needs no room.
    obtain ⟨k, rfl⟩ : ∃ k : ℕ, e = -k := ⟨e.natAbs, by omega⟩
    rw [if_neg hpos, div_finite]
    refine congrArg (fun v => Float.Model.pack (nearest _ v)) ?_
    rw [zpow_zero, mul_one, mul_one, zpow_neg, zpow_natCast, neg_neg, Int.toNat_natCast,
      div_eq_mul_inv]
    push_cast
    rfl

/-- **A decimal is read as the double nearest to its value.** -/
theorem toFloat_eq_nearest {d : Decimal} (h : d.significand ≠ 0) :
    d.toFloat = .ofModel (.pack (nearest .positive d.value)) := by
  obtain ⟨n, e⟩ := d
  rcases lt_or_ge e 0 with he | he
  · obtain ⟨k, rfl⟩ : ∃ k : ℕ, e = -k := ⟨e.natAbs, by omega⟩
    simp only [toFloat, value, he, decide_true, Int.natAbs_neg, Int.natAbs_natCast]
    by_cases hfast : n < 2 ^ 53 ∧ k ≤ 22
    · rw [ofScientific_of_small _ h hfast.1 hfast.2, if_pos rfl, zpow_neg, zpow_natCast,
        div_eq_mul_inv]
    · rw [Float.ofScientific, dif_neg hfast]
      change Float.ofModel (Float.Model.ofScientific n (Int.negOfNat k)) = _
      rw [Int.negOfNat_eq, ofScientific_eq_nearest h]
      rfl
  · obtain ⟨k, rfl⟩ : ∃ k : ℕ, e = k := ⟨e.toNat, by omega⟩
    simp only [toFloat, value, he.not_gt, decide_false, Int.natAbs_natCast]
    by_cases hfast : n < 2 ^ 53 ∧ k ≤ 22
    · rw [ofScientific_of_small _ h hfast.1 hfast.2, if_neg Bool.false_ne_true, zpow_natCast]
    · rw [Float.ofScientific, dif_neg hfast]
      change Float.ofModel (Float.Model.ofScientific n k) = _
      rw [ofScientific_eq_nearest h]

/-- A decimal without digits is zero, whatever its exponent. -/
theorem toFloat_zero (e : ℤ) : (⟨0, e⟩ : Decimal).toFloat = 0 := by
  have hfast : ∀ (neg : Bool) (k : Fin 23), Float.ofScientific 0 neg k.val = 0 := by
    decide +kernel
  rw [toFloat]
  by_cases h : e.natAbs ≤ 22
  · exact hfast _ ⟨e.natAbs, by omega⟩
  · have hslow : ¬((0 : ℕ) < 2 ^ 53 ∧ e.natAbs ≤ 22) := fun hc => h hc.2
    rw [Float.ofScientific, dif_neg hslow]
    simp only [Float.Model.ofScientific, UnpackedFloat.ofScientific, dif_pos]
    decide +kernel

theorem value_ne_zero {d : Decimal} (h : d.significand ≠ 0) : d.value ≠ 0 :=
  mul_ne_zero (by exact_mod_cast h) (zpow_ne_zero _ (by norm_num))

theorem eq_zero_of_value {d : Decimal} (h : d.value = 0) : d.significand = 0 := by
  by_contra hne
  exact value_ne_zero hne h

/-- **Decimals of one value are read as one double.** -/
theorem toFloat_congr {d d' : Decimal} (hv : d.value = d'.value) : d.toFloat = d'.toFloat := by
  by_cases h : d.significand = 0
  · have h' : d'.significand = 0 := by
      refine eq_zero_of_value ?_
      rw [← hv, value, h, Nat.cast_zero, zero_mul]
    obtain ⟨n, e⟩ := d
    obtain ⟨n', e'⟩ := d'
    subst h h'
    rw [toFloat_zero, toFloat_zero]
  · have h' : d'.significand ≠ 0 := by
      intro h0
      refine h (eq_zero_of_value ?_)
      rw [hv, value, h0, Nat.cast_zero, zero_mul]
    rw [toFloat_eq_nearest h, toFloat_eq_nearest h', hv]

/-! ### The shortest decimal -/

/-- All the digits of a number are a decimal of its value. -/
theorem value_exact (m : ℕ) (q : ℤ) : (exact m q).value = m * 2 ^ q := by
  rcases le_or_gt 0 q with h | h
  · obtain ⟨k, rfl⟩ : ∃ k : ℕ, q = k := ⟨q.toNat, by omega⟩
    have h0 : (-(k : ℤ)).toNat = 0 := by omega
    simp [exact, value, h0]
  · obtain ⟨k, rfl⟩ : ∃ k : ℕ, q = -k := ⟨q.natAbs, by omega⟩
    have h0 : (-(k : ℤ)).toNat = 0 := by omega
    have hmin : min (-(k : ℤ)) 0 = -k := by omega
    simp only [exact, value, h0, hmin, neg_neg, Int.toNat_natCast, Nat.pow_eq, pow_zero, mul_one]
    rw [zpow_neg, zpow_neg, zpow_natCast, zpow_natCast, pow_ten_eq]
    push_cast
    field_simp

/-- The sign of a double. -/
def signOf (x : Float) : Sign :=
  Sign.ofBitVec (@unpackSign Format.binary64 x.toBits.toBitVec)

/-- The fields of one of the smallest doubles, as the printer reads them off the bits. -/
theorem binaryParts_of_subnormal {x : Float}
    (h : @unpackExponent Format.binary64 x.toBits.toBitVec = 0#11) :
    binaryParts x = ((@unpackMantissa Format.binary64 x.toBits.toBitVec).toNat, -1074) := by
  have hpow : x.toBits.toNat / 2 ^ 52 % 2 ^ 11 = 0 := by
    refine (toNat_unpackExponent x.toBits.toBitVec).symm.trans ?_
    rw [h]
    rfl
  rw [binaryParts, toNat_unpackMantissa]
  exact if_pos hpow

/-- The fields of a double of full size: the leading bit is put back. -/
theorem binaryParts_of_normal {x : Float}
    (h : @unpackExponent Format.binary64 x.toBits.toBitVec ≠ 0#11) :
    binaryParts x = ((1#1 ++ @unpackMantissa Format.binary64 x.toBits.toBitVec).toNat,
      ((@unpackExponent Format.binary64 x.toBits.toBitVec).toNat : ℤ) - 1075) := by
  have hpow : x.toBits.toNat / 2 ^ 52 % 2 ^ 11 ≠ 0 := by
    intro hc
    exact h (BitVec.eq_of_toNat_eq ((toNat_unpackExponent x.toBits.toBitVec).trans hc))
  rw [binaryParts, toNat_one_append, toNat_unpackMantissa, toNat_unpackExponent]
  exact if_neg hpow

/-- A double with digits has something in one of its two fields. -/
theorem unpackMantissa_ne_zero {x : Float} (h0 : x.toBits.toNat % 2 ^ 63 ≠ 0)
    (h : @unpackExponent Format.binary64 x.toBits.toBitVec = 0#11) :
    @unpackMantissa Format.binary64 x.toBits.toBitVec ≠ 0#52 := by
  have hexp : x.toBits.toNat / 2 ^ 52 % 2 ^ 11 = 0 := by
    refine (toNat_unpackExponent x.toBits.toBitVec).symm.trans ?_
    rw [h]
    rfl
  intro hc
  have hmant : x.toBits.toNat % 2 ^ 52 = 0 := by
    refine (toNat_unpackMantissa x.toBits.toBitVec).symm.trans ?_
    rw [hc]
    rfl
  rw [show 2 ^ 63 = 2 ^ 52 * 2 ^ 11 by norm_num, Nat.mod_mul, hmant, hexp] at h0
  exact h0 rfl

/-- **What the bits of a double say**: a double that is finite and not zero has the
mantissa and the power that are read off its bits, and they lie on the grid. -/
theorem unpack_eq_binaryParts {x : Float} (hx : x.isFinite = true)
    (h0 : x.toBits.toNat % 2 ^ 63 ≠ 0) :
    ∃ hm, x.toModel.unpack = .finite (signOf x) (binaryParts x).1 (binaryParts x).2 hm ∧
      OnGrid (binaryParts x).1 (binaryParts x).2 ∧ (binaryParts x).2 ≤ 971 := by
  set b : BitVec Format.binary64.numBits := x.toBits.toBitVec with hb
  have hunpack : x.toModel.unpack = UnpackedFloat.unpack Format.binary64 b := rfl
  rw [hunpack]
  by_cases h1 : unpackExponent b = -1#11
  · -- The largest exponent is that of the doubles without digits.
    have hfin : x.isFinite = (UnpackedFloat.unpack Format.binary64 b).isFinite := rfl
    rw [hx, unpack_special b h1] at hfin
    split at hfin <;> cases hfin
  by_cases h2 : unpackExponent b = 0#11
  · obtain ⟨hpos, hu⟩ := unpack_subnormal b h2 (unpackMantissa_ne_zero h0 h2)
    have hlog := log2_lt_of_lt hpos.ne' (unpackMantissa b).isLt
    rw [binaryParts_of_subnormal h2, ← hb]
    refine ⟨hpos, hu, ?_, by norm_num⟩
    simp only [OnGrid]
    omega
  · obtain ⟨hpos, hu⟩ := unpack_normal b h1 h2
    have hmin : (unpackExponent b).toNat ≠ 0 := fun hc => h2 (BitVec.eq_of_toNat_eq hc)
    have hmax : (unpackExponent b).toNat ≠ 2047 := fun hc =>
      h1 (BitVec.eq_of_toNat_eq (hc.trans (by decide)))
    have hlt : (unpackExponent b).toNat < 2 ^ 11 := (unpackExponent b).isLt
    rw [binaryParts_of_normal h2, ← hb]
    refine ⟨hpos, hu, onGrid_of_log2 ?_ ?_, ?_⟩
    · rw [toNat_one_append]
      exact log2_of_full (unpackMantissa b).isLt
    · omega
    · omega

/-- **All the digits of a double read back.** -/
theorem toFloat_exact {x : Float} (hx : x.isFinite = true) (h0 : x.toBits.toNat % 2 ^ 63 ≠ 0)
    (hsign : signOf x = .positive) :
    (exact (binaryParts x).1 (binaryParts x).2).toFloat = x := by
  obtain ⟨hm, hu, hg, -⟩ := unpack_eq_binaryParts hx h0
  have hne : (exact (binaryParts x).1 (binaryParts x).2).significand ≠ 0 := by
    simp only [exact, Nat.pow_eq]
    positivity
  rw [toFloat_eq_nearest hne, value_exact, nearest_of_onGrid hg hm, ← hsign, ← hu, pack_unpack]

/-- **The shortest decimal of a positive double reads back.** -/
theorem toFloat_shortest {x : Float} (hx : x.isFinite = true)
    (h0 : x.toBits.toNat % 2 ^ 63 ≠ 0) (hsign : signOf x = .positive) :
    (shortest x).toFloat = x := by
  -- Either a coarser decimal reads back, or all the digits are written.
  rcases toFloat_coarsest x (binaryParts x).1 (binaryParts x).2 24
    (startingGrid (binaryParts x).1 (binaryParts x).2) with h | h
  · exact h
  · refine (congrArg toFloat h).trans ?_
    exact toFloat_exact hx h0 hsign

/-! ### Signs -/

theorem signOf_eq (x : Float) :
    signOf x = if NumberLayout.isNegative x = true then .negative else .positive := by
  have hlt := x.toBits.toBitVec.isLt
  have hval : x.toBits.toBitVec.toNat = x.toBits.toNat := rfl
  have hbit : (@unpackSign Format.binary64 x.toBits.toBitVec).toNat = x.toBits.toNat / 2 ^ 63 := by
    simp only [unpackSign, BitVec.toNat_cast, BitVec.extractLsb_toNat, Nat.shiftRight_eq_div_pow]
    omega
  rw [signOf, Sign.ofBitVec, NumberLayout.isNegative, Nat.pow_eq]
  by_cases h : 2 ^ 63 ≤ x.toBits.toNat
  · have hone : @unpackSign Format.binary64 x.toBits.toBitVec ≠ 0#1 := by
      intro hc
      rw [hc] at hbit
      change 0 = _ at hbit
      omega
    rw [if_neg hone, if_pos (decide_eq_true h)]
  · have hzero : @unpackSign Format.binary64 x.toBits.toBitVec = 0#1 := by
      refine BitVec.eq_of_toNat_eq (hbit.trans ?_)
      change _ = 0
      omega
    rw [if_pos hzero, if_neg (by simpa using h)]

/-- The bits of a zero have nothing but a sign. -/
theorem unpack_eq_zero {x : Float} (h : x.toBits.toNat % 2 ^ 63 = 0) :
    x.toModel.unpack = .zero (signOf x) := by
  set b : BitVec Format.binary64.numBits := x.toBits.toBitVec with hb
  have hmant : (unpackMantissa b).toNat = x.toBits.toNat % 2 ^ 52 := toNat_unpackMantissa b
  have hexp : (unpackExponent b).toNat = x.toBits.toNat / 2 ^ 52 % 2 ^ 11 :=
    toNat_unpackExponent b
  refine unpack_zero b (BitVec.eq_of_toNat_eq (hexp.trans ?_))
    (BitVec.eq_of_toNat_eq (hmant.trans ?_))
  · change _ = 0
    omega
  · change _ = 0
    omega

theorem ofModel_pack_unpack (x : Float) : Float.ofModel (.pack x.toModel.unpack) = x := by
  rw [pack_unpack]

/-- **The size of a double that is finite and not zero** is positive, and the double is
its size with its sign. -/
theorem abs_of_ne_zero {x : Float} (hx : x.isFinite = true) (h0 : x.toBits.toNat % 2 ^ 63 ≠ 0) :
    x.abs.isFinite = true ∧ x.abs.toBits.toNat % 2 ^ 63 ≠ 0 ∧ signOf x.abs = .positive ∧
      x = if NumberLayout.isNegative x = true then -x.abs else x.abs := by
  obtain ⟨hm, hu, hg, hq⟩ := unpack_eq_binaryParts hx h0
  have habs : x.abs =
      .ofModel (.pack (.finite .positive (binaryParts x).1 (binaryParts x).2 hm)) := by
    change Float.ofModel (.pack x.toModel.unpack.abs) = _
    rw [hu]
    rfl
  -- The parts of the size are on the grid too, so it is unpacked to itself.
  have hua : x.abs.toModel.unpack = .finite .positive (binaryParts x).1 (binaryParts x).2 hm := by
    rw [habs]
    exact unpack_pack_of_onGrid hg hm hq
  have hfin : x.abs.isFinite = true := by
    change x.abs.toModel.unpack.isFinite = true
    rw [hua]
    rfl
  have hne : x.abs.toBits.toNat % 2 ^ 63 ≠ 0 := by
    intro hc
    rw [unpack_eq_zero hc] at hua
    cases hua
  refine ⟨hfin, hne, ?_, ?_⟩
  · obtain ⟨hm', hu', -⟩ := unpack_eq_binaryParts hfin hne
    rw [hua] at hu'
    injection hu' with hs
    exact hs.symm
  · rw [signOf_eq] at hu
    split
    · next h =>
      have hneg : -x.abs = .ofModel (.pack x.toModel.unpack) := by
        change Float.ofModel (.pack x.abs.toModel.unpack.neg) = _
        rw [hua, hu, if_pos h]
        rfl
      rw [hneg, ofModel_pack_unpack]
    · next h =>
      rw [if_neg h] at hu
      rw [habs, ← hu, ofModel_pack_unpack]

end Decimal

namespace NumberLayout

open Decimal Rounding Float.Model

theorem isInf_of_isFinite {x : Float} (hx : x.isFinite = true) : x.isInf = false := by
  change x.toModel.unpack.isFinite = true at hx
  change x.toModel.unpack.isInf = false
  cases h : x.toModel.unpack <;> rw [h] at hx <;> first | rfl | cases hx

/-- The text of a layout for zero. -/
def zeroText (layout : NumberLayout) : List Char :=
  if layout.fraction then "0.0".toList else "0".toList

theorem magnitude_of_ne_zero (layout : NumberLayout) {x : Float} (hx : x.isFinite = true)
    (h0 : x.toBits.toNat % 2 ^ 63 ≠ 0) : layout.magnitude x = layout.decimal (shortest x) := by
  rw [magnitude, isInf_of_isFinite hx, if_neg Bool.false_ne_true, Nat.pow_eq, if_neg h0]

theorem magnitude_of_eq_zero (layout : NumberLayout) {x : Float}
    (h : x.toModel.unpack = .zero .positive) : layout.magnitude x = layout.zeroText := by
  have hx : x = 0 := by
    rw [← ofModel_pack_unpack x, h]
    decide +kernel
  have hinf : x.isInf = false := by
    rw [hx]
    decide +kernel
  have hbits : x.toBits.toNat % 2 ^ 63 = 0 := by
    rw [hx]
    decide +kernel
  rw [magnitude, hinf, if_neg Bool.false_ne_true, Nat.pow_eq, if_pos hbits, zeroText]

theorem toList_text (layout : NumberLayout) {x : Float} (hx : x.isFinite = true) :
    (layout.text x).toList =
      if isNegative x then '-' :: layout.magnitude x.abs else layout.magnitude x := by
  rw [text, String.toList_ofList, FloatOrder.isNaN_of_isFinite hx, if_neg Bool.false_ne_true]

/-- **How a zero is written**: with its sign, and with no digits but the one. -/
theorem toList_text_of_zero {layout : NumberLayout}
    (hzero : layout.decimal ⟨0, 0⟩ = layout.zeroText) {x : Float} (hx : x.isFinite = true)
    (h0 : x.toBits.toNat % 2 ^ 63 = 0) :
    (layout.text x).toList = (if isNegative x then ['-'] else []) ++ layout.decimal ⟨0, 0⟩ := by
  have hu := unpack_eq_zero h0
  have habs : x.abs.toModel.unpack = .zero .positive := by
    show (Float.Model.pack x.toModel.unpack.abs).unpack = _
    rw [hu]
    exact unpack_pack_zero .positive
  rw [toList_text layout hx, hzero]
  cases hneg : isNegative x with
  | true =>
    rw [if_pos rfl, if_pos rfl, magnitude_of_eq_zero layout habs]
    rfl
  | false =>
    rw [signOf_eq, hneg, if_neg Bool.false_ne_true] at hu
    rw [if_neg Bool.false_ne_true, if_neg Bool.false_ne_true, magnitude_of_eq_zero layout hu]
    rfl

/-- The two zeros differ in nothing but their sign. -/
theorem eq_zero_with_sign {x : Float} (h0 : x.toBits.toNat % 2 ^ 63 = 0) :
    (if isNegative x then -(0 : Float) else 0) = x := by
  have hu := unpack_eq_zero h0
  rw [signOf_eq] at hu
  conv_rhs => rw [← ofModel_pack_unpack x, hu]
  cases isNegative x <;> decide +kernel

/-- **How a double with digits is written**: its sign, then the shortest decimal of its
size. -/
theorem toList_text_of_ne_zero {layout : NumberLayout} {x : Float} (hx : x.isFinite = true)
    (h0 : x.toBits.toNat % 2 ^ 63 ≠ 0) :
    (layout.text x).toList =
      (if isNegative x then ['-'] else []) ++ layout.decimal (shortest x.abs) := by
  obtain ⟨hfin, hne, -, hx'⟩ := abs_of_ne_zero hx h0
  rw [toList_text layout hx]
  cases hneg : isNegative x with
  | true =>
    rw [if_pos rfl, if_pos rfl, magnitude_of_ne_zero layout hfin hne]
    rfl
  | false =>
    rw [hneg, if_neg Bool.false_ne_true] at hx'
    rw [if_neg Bool.false_ne_true, if_neg Bool.false_ne_true,
      magnitude_of_ne_zero layout hx h0, ← hx']
    rfl

/-- **How a finite double is written**: the digits of a decimal that is read as its size,
and a minus sign if its sign bit is set. -/
theorem exists_decimal {layout : NumberLayout} (hzero : layout.decimal ⟨0, 0⟩ = layout.zeroText)
    {x : Float} (hx : x.isFinite = true) :
    ∃ (neg : Bool) (d : Decimal),
      (layout.text x).toList = (if neg then ['-'] else []) ++ layout.decimal d ∧
      (if neg then -d.toFloat else d.toFloat) = x := by
  -- A zero has no shortest decimal, so it is written apart.
  by_cases h0 : x.toBits.toNat % 2 ^ 63 = 0
  · refine ⟨isNegative x, ⟨0, 0⟩, toList_text_of_zero hzero hx h0, ?_⟩
    rw [toFloat_zero]
    exact eq_zero_with_sign h0
  · obtain ⟨hfin, hne, hsign, hx'⟩ := abs_of_ne_zero hx h0
    refine ⟨isNegative x, shortest x.abs, toList_text_of_ne_zero hx h0, ?_⟩
    rw [toFloat_shortest hfin hne hsign]
    exact hx'.symm

end NumberLayout

end TradeSignals
