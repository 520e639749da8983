import Mathlib.Data.Nat.Notation
import Mathlib.Tactic.NormNum
import TradeSignals.Decimal.Reading
import TradeSignals.Text.Blank

/-!
# Digits

What the readers of numbers and dates have in common: a run of digits has a value, the
digits of a number have that number as their value, and zeros in front do not change it.
Readers tell a run of digits from what stands around it by its first character, which is
neither a blank nor a sign.
-/

namespace TradeSignals

/-! ### The value of digits -/

theorem digitsValue_eq (digits : List Char) : digitsValue digits = Nat.ofDigitChars 10 digits 0 :=
  Nat.ofDigitChars_eq_foldl.symm

@[simp] theorem digitsValue_toDigits (n : ℕ) : digitsValue (Nat.toDigits 10 n) = n := by
  rw [digitsValue_eq, Nat.ofDigitChars_ten_toDigits]

theorem digitsValue_append (a b : List Char) :
    digitsValue (a ++ b) = 10 ^ b.length * digitsValue a + digitsValue b := by
  rw [digitsValue_eq, digitsValue_eq, digitsValue_eq, Nat.ofDigitChars_append,
    Nat.ofDigitChars_eq_ofDigitChars_zero]

@[simp] theorem digitsValue_replicate_zero (n : ℕ) : digitsValue (List.replicate n '0') = 0 := by
  rw [digitsValue_eq, Nat.ofDigitChars_replicate_zero, Nat.mul_zero]

theorem isDigit_toDigits {n : ℕ} {c : Char} (h : c ∈ Nat.toDigits 10 n) : c.isDigit = true :=
  Nat.isDigit_of_mem_toDigits (by norm_num) le_rfl h

theorem isDigit_replicate_zero {n : ℕ} {c : Char} (h : c ∈ List.replicate n '0') :
    c.isDigit = true := by
  rw [List.eq_of_mem_replicate h]
  rfl

/-! ### What stands around digits -/

/-- A sign in front of digits is split off, and only a sign is. -/
theorem splitSign_digits {ds s : List Char} (hne : ds ≠ []) (h : ∀ c ∈ ds, c.isDigit = true)
    (neg : Bool) : splitSign ((if neg then ['-'] else []) ++ (ds ++ s)) = (neg, ds ++ s) := by
  cases neg with
  | true => rfl
  | false =>
    obtain ⟨c, ds, rfl⟩ := List.exists_cons_of_ne_nil hne
    have hc := h c List.mem_cons_self
    simp only [List.cons_append, Bool.false_eq_true, if_false, List.nil_append]
    unfold splitSign
    split
    · next heq =>
      rw [(List.cons.inj heq).1] at hc
      cases hc
    · next heq =>
      rw [(List.cons.inj heq).1] at hc
      cases hc
    · rfl

theorem toList_toString_int (p : ℤ) :
    (toString p).toList = (if p < 0 then ['-'] else []) ++ Nat.toDigits 10 p.natAbs := by
  rw [Int.toString_eq_repr, Int.repr_eq_if]
  by_cases h : p < 0
  · obtain ⟨k, rfl⟩ : ∃ k : ℕ, p = -k := ⟨p.natAbs, by omega⟩
    rw [if_neg (by omega), if_pos h]
    simp [Nat.toList_repr]
  · obtain ⟨k, rfl⟩ : ∃ k : ℕ, p = k := ⟨p.toNat, by omega⟩
    rw [if_pos (by omega), if_neg h]
    simp [Nat.toList_repr]

/-- **A 64-bit integer is its sign and its size**, where there is one with this value, and there
is none outside of the range. -/
theorem int64?_eq (negative : Bool) (size : ℕ) {value : ℤ}
    (hvalue : value = if negative then -(size : ℤ) else size) : int64? negative size =
      if -2 ^ 63 ≤ value ∧ value ≤ 2 ^ 63 - 1 then some (Int64.ofInt value) else none := by
  subst hvalue
  cases negative with
  | true =>
    have hrange : size ≤ Nat.pow 2 63 ↔ -2 ^ 63 ≤ -(size : ℤ) ∧ -(size : ℤ) ≤ 2 ^ 63 - 1 := by
      rw [Nat.pow_eq]
      omega
    simp only [int64?, if_true, hrange]
  | false =>
    have hrange : size < Nat.pow 2 63 ↔ -2 ^ 63 ≤ (size : ℤ) ∧ (size : ℤ) ≤ 2 ^ 63 - 1 := by
      rw [Nat.pow_eq]
      omega
    simp only [int64?, Bool.false_eq_true, if_false, hrange]

/-- A 64-bit integer is read from its sign and its size. -/
theorem int64?_toInt (v : Int64) :
    int64? (decide (v.toInt < 0)) v.toInt.natAbs = some v := by
  have hlow := v.le_toInt
  have hhigh := v.toInt_lt
  have hvalue : v.toInt = if decide (v.toInt < 0) then -(v.toInt.natAbs : ℤ)
      else v.toInt.natAbs := by
    simp only [decide_eq_true_eq]
    omega
  rw [int64?_eq _ _ hvalue, if_pos ⟨hlow, by omega⟩, Int64.ofInt_toInt]

namespace Text

theorem isBlank_of_isDigit {c : Char} (h : c.isDigit = true) : Text.isBlank c = false := by
  simp only [Char.isDigit, Bool.and_eq_true, decide_eq_true_eq] at h
  have h1 : 48 ≤ c.val.toNat := h.1
  have h2 : c.val.toNat ≤ 57 := h.2
  have h3 : c.toNat = c.val.toNat := rfl
  simp only [Text.isBlank, Bool.or_eq_false_iff, Bool.and_eq_false_iff, beq_eq_false_iff_ne,
    decide_eq_false_iff_not]
  omega

end Text

end TradeSignals
