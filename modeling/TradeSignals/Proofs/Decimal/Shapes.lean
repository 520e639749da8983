import TradeSignals.Decimal.Layout
import TradeSignals.Proofs.Decimal.Digits
import TradeSignals.Proofs.Decimal.Nearest

/-!
# The shapes of written numbers

A number is written in one of a few shapes: digits, then perhaps a point and digits, then perhaps a
power of ten. In canonical layout there is always one of the last two
(`TradeSignals.NumberLayout.exists_parts`), and in plain layout never a power of ten
(`TradeSignals.NumberLayout.exists_written`). Read as a numeral, the parts have the value of the
decimal they were written for.
-/

namespace TradeSignals

/-! ### Canonical layout -/

/-- The characters of a power of ten, if there is one. -/
def powerChars : Option ℤ → List Char
  | none => []
  | some p => 'e' :: (toString p).toList

/-- The characters of a point and the digits after it, if there are any. -/
def fractionChars (fraction : List Char) : List Char :=
  if fraction = [] then [] else '.' :: fraction

namespace NumberLayout

open Decimal

/-- **The parts of a decimal** that is written with a point or a power of ten. -/
structure Parts (d : Decimal) (whole fraction : List Char) (power : Option ℤ) : Prop where
  /-- There are digits before the point. -/
  whole_ne_nil : whole ≠ []
  /-- There is a point or a power of ten. -/
  marked : power = none → fraction ≠ []
  /-- Digits stand before the point. -/
  whole_digits : ∀ c ∈ whole, c.isDigit = true
  /-- Digits stand after the point. -/
  fraction_digits : ∀ c ∈ fraction, c.isDigit = true
  /-- As a numeral the parts have the value of the decimal. -/
  value_eq : Decimal.value ⟨digitsValue (whole ++ fraction), power.getD 0 - fraction.length⟩ =
    d.value

/-- A number without digits after the point: zeros fill the places up to it, and one more
stands after it. -/
theorem parts_padded (n k : ℕ) :
    Parts ⟨n, k⟩ (Nat.toDigits 10 n ++ List.replicate k '0') ['0'] none := by
  have hval : digitsValue (Nat.toDigits 10 n ++ List.replicate k '0' ++ ['0']) =
      n * 10 ^ (k + 1) := by
    rw [digitsValue_append, digitsValue_append, digitsValue_toDigits,
      digitsValue_replicate_zero, List.length_replicate, List.length_singleton]
    simp [digitsValue]
    ring
  refine ⟨by simp, by simp, ?_, ?_, ?_⟩
  · intro c hc
    rcases List.mem_append.1 hc with h | h
    · exact isDigit_toDigits h
    · exact isDigit_replicate_zero h
  · intro c hc
    rw [List.mem_singleton.1 hc]
    rfl
  · -- The zero after the point makes the numeral ten times as large, and its exponent lower.
    rw [hval]
    simp only [value, Option.getD_none, List.length_singleton]
    push_cast
    rw [zpow_natCast]
    norm_num
    field_simp
    ring

/-- A number with digits on both sides of the point. -/
theorem parts_split {n k : ℕ} {e : ℤ} (hk : (Nat.toDigits 10 n).length + e = k) (hpos : 0 < k)
    (he : e < 0) :
    Parts ⟨n, e⟩ ((Nat.toDigits 10 n).take k) ((Nat.toDigits 10 n).drop k) none ∧
      (Nat.toDigits 10 n).drop k ≠ [] := by
  have hlen := Nat.length_toDigits_pos (b := 10) (n := n)
  have hdrop : (Nat.toDigits 10 n).drop k ≠ [] := by
    rw [Ne, List.drop_eq_nil_iff]
    omega
  refine ⟨⟨?_, fun _ => hdrop, ?_, ?_, ?_⟩, hdrop⟩
  · rw [Ne, List.take_eq_nil_iff]
    simp
    omega
  · exact fun c hc => isDigit_toDigits (List.mem_of_mem_take hc)
  · exact fun c hc => isDigit_toDigits (List.mem_of_mem_drop hc)
  · have hexp : (0 : ℤ) - ((Nat.toDigits 10 n).drop k).length = e := by
      rw [List.length_drop]
      omega
    simp only [value, Option.getD_none, hexp, List.take_append_drop, digitsValue_toDigits]

/-- A number below one: zeros fill the places between the point and its digits. -/
theorem parts_below {n k : ℕ} {e : ℤ} (hk : -((Nat.toDigits 10 n).length + e) = k) :
    Parts ⟨n, e⟩ ['0'] (List.replicate k '0' ++ Nat.toDigits 10 n) none := by
  have hexp : (0 : ℤ) - (List.replicate k '0' ++ Nat.toDigits 10 n).length = e := by
    rw [List.length_append, List.length_replicate]
    push_cast
    omega
  have hval : digitsValue (['0'] ++ (List.replicate k '0' ++ Nat.toDigits 10 n)) = n := by
    have h0 : digitsValue ['0'] = 0 := rfl
    rw [digitsValue_append, digitsValue_append, digitsValue_replicate_zero,
      digitsValue_toDigits, h0, Nat.mul_zero, Nat.mul_zero, Nat.zero_add, Nat.zero_add]
  refine ⟨by simp, by simp, ?_, ?_, ?_⟩
  · intro c hc
    rw [List.mem_singleton.1 hc]
    rfl
  · intro c hc
    rcases List.mem_append.1 hc with h | h
    · exact isDigit_replicate_zero h
    · exact isDigit_toDigits h
  · simp only [value, Option.getD_none, hexp, hval]

/-- A number that is written out has a point. -/
theorem exists_parts_positional (d : Decimal) :
    ∃ whole fraction, canonical.positional (Nat.toDigits 10 d.significand) d.exponent =
      whole ++ '.' :: fraction ∧ Parts d whole fraction none ∧ fraction ≠ [] := by
  obtain ⟨n, e⟩ := d
  simp only [positional, canonical, if_true]
  -- The point stands after all digits, among them, or before all of them.
  rcases le_or_gt 0 e with he | he
  · obtain ⟨k, rfl⟩ : ∃ k : ℕ, e = k := ⟨e.toNat, by omega⟩
    refine ⟨_, _, ?_, parts_padded n k, by simp⟩
    rw [if_pos he, Int.toNat_natCast]
  · rw [if_neg (by omega)]
    by_cases hplace : 0 < (Nat.toDigits 10 n).length + e
    · obtain ⟨k, hk⟩ : ∃ k : ℕ, (Nat.toDigits 10 n).length + e = k :=
        ⟨_, (Int.toNat_of_nonneg hplace.le).symm⟩
      obtain ⟨hparts, hne⟩ := parts_split hk (by omega) he
      refine ⟨_, _, ?_, hparts, hne⟩
      rw [if_pos hplace, hk, Int.toNat_natCast]
    · obtain ⟨k, hk⟩ : ∃ k : ℕ, -((Nat.toDigits 10 n).length + e) = k :=
        ⟨_, (Int.toNat_of_nonneg (by omega)).symm⟩
      refine ⟨_, _, ?_, parts_below hk, by simp⟩
      rw [if_neg hplace, hk, Int.toNat_natCast]
      rfl

/-- A number with one digit before the point and a power of ten. -/
theorem exists_parts_scientific (d : Decimal) :
    ∃ whole fraction p, scientific (Nat.toDigits 10 d.significand) d.exponent =
      whole ++ fractionChars fraction ++ powerChars (some p) ∧
        Parts d whole fraction (some p) := by
  obtain ⟨n, e⟩ := d
  have hlen := Nat.length_toDigits_pos (b := 10) (n := n)
  refine ⟨(Nat.toDigits 10 n).take 1, (Nat.toDigits 10 n).drop 1,
    (Nat.toDigits 10 n).length + e - 1, ?_, ⟨?_, by simp, ?_, ?_, ?_⟩⟩
  · rw [scientific, fractionChars, powerChars]
    by_cases h1 : (Nat.toDigits 10 n).length ≤ 1
    · rw [if_pos h1, if_pos (List.drop_eq_nil_iff.2 h1)]
    · rw [if_neg h1, if_neg (fun hc => h1 (List.drop_eq_nil_iff.1 hc))]
  · rw [Ne, List.take_eq_nil_iff]
    simp
  · exact fun c hc => isDigit_toDigits (List.mem_of_mem_take hc)
  · exact fun c hc => isDigit_toDigits (List.mem_of_mem_drop hc)
  · -- Moving the point behind the first digit is made up for by the power of ten.
    have hexp : ((Nat.toDigits 10 n).length + e - 1 : ℤ) - ((Nat.toDigits 10 n).drop 1).length =
        e := by
      rw [List.length_drop]
      omega
    simp only [value, Option.getD_some, hexp, List.take_append_drop, digitsValue_toDigits]

/-- **What the text of a decimal looks like** in canonical layout. -/
theorem exists_parts (d : Decimal) :
    ∃ whole fraction power, canonical.decimal d =
      whole ++ fractionChars fraction ++ powerChars power ∧ Parts d whole fraction power := by
  have hout : canonical.decimal d =
      let place := (Nat.toDigits 10 d.significand).length + d.exponent
      if (decide (-3 ≤ place) && decide (place ≤ 16)) = true then
        canonical.positional (Nat.toDigits 10 d.significand) d.exponent
      else scientific (Nat.toDigits 10 d.significand) d.exponent := rfl
  rw [hout]
  dsimp only
  -- Numbers that are neither very large nor very small are written out.
  split
  · obtain ⟨whole, fraction, h, hp, hne⟩ := exists_parts_positional d
    refine ⟨whole, fraction, none, ?_, hp⟩
    rw [h, fractionChars, if_neg hne, powerChars, List.append_nil]
  · obtain ⟨whole, fraction, p, h, hp⟩ := exists_parts_scientific d
    exact ⟨whole, fraction, some p, h, hp⟩

/-! ### Plain layout -/

/-- **The digits of a decimal** that is written out, before the point and after it. -/
structure Written (d : Decimal) (whole fraction : List Char) : Prop where
  /-- There are digits before the point. -/
  whole_ne_nil : whole ≠ []
  /-- Digits stand before the point. -/
  whole_digits : ∀ c ∈ whole, c.isDigit = true
  /-- Digits stand after the point. -/
  fraction_digits : ∀ c ∈ fraction, c.isDigit = true
  /-- As a numeral they have the value of the decimal. -/
  value_eq : Decimal.value ⟨digitsValue (whole ++ fraction), 0 - fraction.length⟩ = d.value

theorem Parts.written {d : Decimal} {whole fraction : List Char} (h : Parts d whole fraction none) :
    Written d whole fraction :=
  ⟨h.whole_ne_nil, h.whole_digits, h.fraction_digits, h.value_eq⟩

/-- A whole number is bare: zeros fill the places up to the point, which is not written. -/
theorem written_bare (n k : ℕ) : Written ⟨n, k⟩ (Nat.toDigits 10 n ++ List.replicate k '0') [] := by
  have hval : digitsValue (Nat.toDigits 10 n ++ List.replicate k '0') = 10 ^ k * n := by
    rw [digitsValue_append, digitsValue_toDigits, digitsValue_replicate_zero, List.length_replicate,
      Nat.add_zero]
  refine ⟨by simp, ?_, nofun, ?_⟩
  · intro c hc
    rcases List.mem_append.1 hc with h | h
    · exact isDigit_toDigits h
    · exact isDigit_replicate_zero h
  · rw [List.append_nil, hval]
    simp only [value, List.length_nil, Nat.cast_zero, sub_zero, zpow_zero, mul_one]
    push_cast
    rw [zpow_natCast, mul_comm]

/-- **What the text of a decimal looks like** in plain layout. -/
theorem exists_written (d : Decimal) : ∃ whole fraction,
    plain.decimal d = whole ++ fractionChars fraction ∧ Written d whole fraction := by
  obtain ⟨n, e⟩ := d
  have hout : plain.decimal ⟨n, e⟩ = plain.positional (Nat.toDigits 10 n) e := rfl
  rw [hout, positional]
  -- The point stands after all digits, and is not written then, among them, or before all of them.
  rcases le_or_gt 0 e with he | he
  · obtain ⟨k, rfl⟩ : ∃ k : ℕ, e = k := ⟨e.toNat, by omega⟩
    refine ⟨_, [], ?_, written_bare n k⟩
    rw [if_pos he, Int.toNat_natCast]
    rfl
  · rw [if_neg (by omega)]
    by_cases hplace : 0 < (Nat.toDigits 10 n).length + e
    · obtain ⟨k, hk⟩ : ∃ k : ℕ, (Nat.toDigits 10 n).length + e = k :=
        ⟨_, (Int.toNat_of_nonneg hplace.le).symm⟩
      obtain ⟨hparts, hne⟩ := parts_split hk (by omega) he
      refine ⟨_, _, ?_, hparts.written⟩
      rw [if_pos hplace, hk, Int.toNat_natCast, fractionChars, if_neg hne]
    · obtain ⟨k, hk⟩ : ∃ k : ℕ, -((Nat.toDigits 10 n).length + e) = k :=
        ⟨_, (Int.toNat_of_nonneg (by omega)).symm⟩
      refine ⟨_, _, ?_, (parts_below hk).written⟩
      rw [if_neg hplace, hk, Int.toNat_natCast, fractionChars, if_neg (by simp)]
      rfl

end NumberLayout

end TradeSignals
