import TradeSignals.Calendar.DateText
import TradeSignals.Proofs.Decimal.Digits
import TradeSignals.Proofs.Text.Trim

/-!
# Dates read back

Every date of the calendar is read back from its text
(`TradeSignals.Date.read_text`). The year is the delicate part: between year zero and
year 9999 it is written with four digits, which is as many as the reader takes when there
is no sign; any other year has a sign, and then the reader takes digits up to the dash.
-/

namespace TradeSignals

namespace Date

/-! ### Padded numbers -/

theorem isDigit_padded {width n : ℕ} {c : Char} (h : c ∈ padded width n) : c.isDigit = true := by
  rcases List.mem_append.1 h with h | h
  · exact isDigit_replicate_zero h
  · exact isDigit_toDigits h

theorem padded_ne_nil (width n : ℕ) : padded width n ≠ [] := by
  intro h
  exact Nat.toDigits_ne_nil (List.append_eq_nil_iff.1 h).2

/-- Zeros in front do not change a number. -/
@[simp] theorem digitsValue_padded (width n : ℕ) : digitsValue (padded width n) = n := by
  rw [padded, digitsValue_append, digitsValue_replicate_zero, digitsValue_toDigits, Nat.mul_zero,
    Nat.zero_add]

/-- A number that is not too large is padded to the width exactly. -/
theorem length_padded {width n : ℕ} (hw : 0 < width) (hn : n < 10 ^ width) :
    (padded width n).length = width := by
  have hlen := (Nat.length_toDigits_le_iff (b := 10) (by norm_num) hw).2 hn
  rw [padded, List.length_append, List.length_replicate]
  omega

theorem skipBlanks_padded (width n : ℕ) (s : List Char) :
    Text.skipBlanks (padded width n ++ s) = padded width n ++ s := by
  obtain ⟨c, ds, hds⟩ := List.exists_cons_of_ne_nil (padded_ne_nil width n)
  have hc : c.isDigit = true := isDigit_padded (hds ▸ List.mem_cons_self)
  rw [hds]
  exact Text.skipBlanks_cons_of_not_isBlank _ (Text.isBlank_of_isDigit hc)

/-! ### Reading padded numbers -/

/-- Digits are taken up to the width. -/
theorem readDigits_padded {width n : ℕ} (hw : 0 < width) (hn : n < 10 ^ width) (s : List Char) :
    readDigits (some width) (padded width n ++ s) = .ok (n, s) := by
  have hne : padded width n ++ s ≠ [] := List.append_ne_nil_of_left_ne_nil (padded_ne_nil _ _) s
  have htake : ((padded width n ++ s).take width).takeWhile Char.isDigit = padded width n := by
    rw [List.take_left' (length_padded hw hn), ← List.append_nil (padded width n),
      List.takeWhile_append_of_pos fun c hc => isDigit_padded hc, List.takeWhile_nil]
  simp only [readDigits, htake, if_neg hne, if_neg (padded_ne_nil width n), digitsValue_padded,
    List.drop_left]

/-- Without a width, digits are taken up to the dash. -/
theorem readDigits_padded_dash (width n : ℕ) (s : List Char) :
    readDigits none (padded width n ++ '-' :: s) = .ok (n, '-' :: s) := by
  have hne : padded width n ++ '-' :: s ≠ [] :=
    List.append_ne_nil_of_left_ne_nil (padded_ne_nil _ _) _
  have htake : (padded width n ++ '-' :: s).takeWhile Char.isDigit = padded width n := by
    rw [List.takeWhile_append_of_pos fun c hc => isDigit_padded hc]
    simp [show '-'.isDigit = false from rfl]
  simp only [readDigits, htake, if_neg hne, if_neg (padded_ne_nil width n), digitsValue_padded,
    List.drop_left]

/-- A signed year: the reader sees that a character was split off. -/
theorem readYear_signed (neg : Bool) {n : ℕ} (h : n < 2 ^ 31) (s : List Char) :
    readYear ((if neg then '-' else '+') :: (padded 4 n ++ '-' :: s)) =
      .ok (if neg then -n else n, '-' :: s) := by
  have hskip : Text.skipBlanks ((if neg then '-' else '+') :: (padded 4 n ++ '-' :: s)) =
      (if neg then '-' else '+') :: (padded 4 n ++ '-' :: s) := by
    cases neg <;> rfl
  have hsign : splitSign ((if neg then '-' else '+') :: (padded 4 n ++ '-' :: s)) =
      (neg, padded 4 n ++ '-' :: s) := by
    cases neg <;> rfl
  have hne : padded 4 n ++ '-' :: s ≠ (if neg then '-' else '+') :: (padded 4 n ++ '-' :: s) := by
    intro hc
    have hlen := congrArg List.length hc
    rw [List.length_cons] at hlen
    omega
  have hrange : -(Nat.pow 2 31 : ℤ) ≤ (if neg = true then -(n : ℤ) else n) ∧
      (if neg = true then -(n : ℤ) else n) < Nat.pow 2 31 := by
    rw [Nat.pow_eq]
    split <;> omega
  simp only [readYear, hskip, hsign, if_neg hne, readDigits_padded_dash, if_pos hrange]

/-- A year of the calendar is read back. -/
theorem readYear_yearText {year : ℤ} (hlow : -262143 ≤ year) (hhigh : year ≤ 262142)
    (s : List Char) : readYear (yearText year ++ '-' :: s) = .ok (year, '-' :: s) := by
  -- Years of four digits have no sign and are read up to their width, all others have one.
  by_cases h : 0 ≤ year ∧ year ≤ 9999
  · have hrange : -(Nat.pow 2 31 : ℤ) ≤ year ∧ year < Nat.pow 2 31 := by
      rw [Nat.pow_eq]
      omega
    have hsign := splitSign_digits (s := '-' :: s) (padded_ne_nil 4 year.toNat)
      (fun c hc => isDigit_padded hc) false
    have hyear : ((year.toNat : ℕ) : ℤ) = year := Int.toNat_of_nonneg h.1
    simp only [Bool.false_eq_true, if_false, List.nil_append] at hsign
    simp only [yearText, if_pos h, readYear, skipBlanks_padded, hsign, if_true,
      Bool.false_eq_true, if_false, hyear, if_pos hrange,
      readDigits_padded (by norm_num : 0 < 4) (by omega : year.toNat < 10 ^ 4)]
  · have hsigned := readYear_signed (decide (year < 0)) (by omega : year.natAbs < 2 ^ 31) s
    have hyear : (if year < 0 then -(year.natAbs : ℤ) else year.natAbs) = year := by
      split <;> omega
    simp only [decide_eq_true_eq, hyear] at hsigned
    rw [yearText, if_neg h]
    exact hsigned

/-- A month or a day is read back. -/
theorem readPart_padded {greatest n : ℕ} (hg : greatest < 100) (h1 : 1 ≤ n) (h2 : n ≤ greatest)
    (s : List Char) : readPart greatest (padded 2 n ++ s) = .ok (n, s) := by
  simp only [readPart, skipBlanks_padded,
    readDigits_padded (by norm_num : 0 < 2) (by omega : n < 10 ^ 2), if_pos (And.intro h1 h2)]

theorem of?_self (d : Date) : of? d.year d.month d.day = some d := by
  rw [of?, dif_pos d.valid]

/-- **A date is read back from its text.** -/
theorem read_text (d : Date) : read d.text = .ok d := by
  have hvalid := d.valid
  simp only [exists?, Bool.and_eq_true, decide_eq_true_eq] at hvalid
  obtain ⟨hm1, hm2⟩ := d.month_bounds
  obtain ⟨hd1, hd2⟩ := d.day_bounds
  have hdash : ∀ s, readDash ('-' :: s) = .ok s := fun _ => rfl
  have hday := readPart_padded (by norm_num) hd1 hd2 []
  rw [List.append_nil] at hday
  rw [read, text, String.toList_ofList, chars, readYear_yearText hvalid.1.1.1 hvalid.1.1.2]
  simp only [bind, Except.bind, hdash, readPart_padded (by norm_num) hm1 hm2, hday, ne_eq,
    not_true_eq_false, if_false, of?_self]
  rfl

/-- There are no blanks in the text of a date. -/
theorem trim_text (d : Date) : Text.trim d.text = d.text := by
  have hpadded : ∀ {width n c}, c ∈ padded width n → Text.isBlank c = false :=
    fun hc => Text.isBlank_of_isDigit (isDigit_padded hc)
  have hyear : ∀ c ∈ yearText d.year, Text.isBlank c = false := by
    intro c hc
    rw [yearText] at hc
    split at hc
    · exact hpadded hc
    · rcases List.mem_cons.1 hc with rfl | hdigit
      · split <;> rfl
      · exact hpadded hdigit
  refine Text.trim_of_forall fun c hc => ?_
  simp only [text, String.toList_ofList, chars, List.mem_append, List.mem_cons] at hc
  rcases hc with hc | rfl | hc | rfl | hc
  · exact hyear c hc
  · rfl
  · exact hpadded hc
  · rfl
  · exact hpadded hc

end Date

end TradeSignals
