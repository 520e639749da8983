import TradeSignals.Proofs.Decimal.Shapes
import TradeSignals.Proofs.Text.Trim

/-!
# Numbers of files read back

A double is written in plain layout and read back as it was (`TradeSignals.readFloat_text`), the two
infinities and the two zeros as well; only the missing number is left out, of which there are many.
A 64-bit integer is read back too (`TradeSignals.readInt64_text`). Neither has blanks in its text,
so it does not matter that blanks are cut off before it is read.
-/

namespace TradeSignals

open Decimal Float.Model

variable {whole fraction : List Char} {x : Float}

/-! ### Digits are a numeral -/

theorem toLower_of_isDigit {c : Char} (h : c.isDigit = true) : c.toLower = c := by
  simp only [Char.isDigit, Bool.and_eq_true, decide_eq_true_eq] at h
  rw [Char.toLower]
  split
  · next hupper =>
    have h1 : c.val.toNat ≤ 57 := h.2
    have h2 : 65 ≤ c.val.toNat := hupper.1
    omega
  · rfl

/-- What begins with a digit is no name of a number. -/
theorem namedFloat?_of_isDigit {c : Char} (h : c.isDigit = true) (rest : List Char) :
    namedFloat? (c :: rest) = none := by
  have hname : ∀ name : String, name.toList.head?.any Char.isDigit = false →
      String.ofList ((c :: rest).map Char.toLower) ≠ name := by
    rintro _ hletter rfl
    rw [String.toList_ofList, List.map_cons, List.head?_cons, toLower_of_isDigit h] at hletter
    simp [h] at hletter
  rw [namedFloat?]
  split
  · next heq => exact absurd heq (hname _ (by decide))
  · next heq => exact absurd heq (hname _ (by decide))
  · next heq => exact absurd heq (hname _ (by decide))
  · rfl

theorem readNumeral?_digits (neg : Bool) (hne : whole ≠ []) (hwhole : ∀ c ∈ whole, c.isDigit = true)
    (hfraction : ∀ c ∈ fraction, c.isDigit = true) :
    readNumeral? neg (whole ++ fractionChars fraction) = some ⟨neg, whole, fraction, 0⟩ := by
  have htake : (whole ++ fractionChars fraction).takeWhile Char.isDigit = whole := by
    rw [List.takeWhile_append_of_pos hwhole, fractionChars]
    split <;> simp
  have hdrop :
      (whole ++ fractionChars fraction).dropWhile Char.isDigit = fractionChars fraction := by
    rw [List.dropWhile_append_of_pos hwhole, fractionChars]
    split <;> simp
  rw [readNumeral?, htake, hdrop]
  by_cases hpoint : fraction = []
  · subst hpoint
    simp [fractionChars, hne, readExponent?]
  · have htakeAll : fraction.takeWhile Char.isDigit = fraction :=
      List.takeWhile_eq_self_iff.2 hfraction
    have hdropAll : fraction.dropWhile Char.isDigit = [] := List.dropWhile_eq_nil_iff.2 hfraction
    simp [fractionChars, hpoint, hne, readExponent?, htakeAll, hdropAll]

/-- **The digits of a decimal are read as its double.** -/
theorem readFloat_digits {d : Decimal} (h : NumberLayout.Written d whole fraction) (neg : Bool) :
    readFloat (String.ofList ((if neg then ['-'] else []) ++ (whole ++ fractionChars fraction))) =
      .ok (if neg then -d.toFloat else d.toFloat) := by
  obtain ⟨c, ds, rfl⟩ := List.exists_cons_of_ne_nil h.whole_ne_nil
  have hsign := splitSign_digits (s := fractionChars fraction) h.whole_ne_nil h.whole_digits neg
  have hname := namedFloat?_of_isDigit (h.whole_digits c List.mem_cons_self)
    (ds ++ fractionChars fraction)
  have hnumeral := readNumeral?_digits neg h.whole_ne_nil h.whole_digits h.fraction_digits
  rw [readFloat, String.toList_ofList]
  split
  · next heq => cases neg <;> cases heq
  · rw [hsign]
    dsimp only
    rw [List.cons_append] at hnumeral ⊢
    rw [hname]
    dsimp only
    rw [hnumeral]
    dsimp only [Numeral.toFloat]
    rw [Decimal.toFloat_congr h.value_eq]

/-! ### Doubles -/

/-- A double that is a number is finite or one of the two infinities. -/
theorem isFinite_or_eq_infinity (h : x.isNaN = false) :
    x.isFinite = true ∨ x = 1 / 0 ∨ x = -(1 / 0) := by
  change x.toModel.unpack.isNaN = false at h
  have hx := Decimal.ofModel_pack_unpack x
  cases hu : x.toModel.unpack with
  | notANumber =>
    rw [hu] at h
    cases h
  | infinity sign =>
    rw [hu] at hx
    refine .inr ?_
    rw [← hx]
    cases sign with
    | positive => exact .inl (by decide +kernel)
    | negative => exact .inr (by decide +kernel)
  | zero sign => exact .inl (congrArg UnpackedFloat.isFinite hu)
  | finite sign mantissa exponent hpos => exact .inl (congrArg UnpackedFloat.isFinite hu)

theorem text_infinity : NumberLayout.plain.text (1 / 0) = "inf" := by decide +kernel

theorem text_neg_infinity : NumberLayout.plain.text (-(1 / 0)) = "-inf" := by decide +kernel

/-- How a finite double is written. -/
theorem exists_text (hx : x.isFinite = true) : ∃ (neg : Bool) (d : Decimal) (whole fraction : _),
    NumberLayout.plain.text x =
      String.ofList ((if neg then ['-'] else []) ++ (whole ++ fractionChars fraction)) ∧
      NumberLayout.Written d whole fraction ∧ (if neg then -d.toFloat else d.toFloat) = x := by
  obtain ⟨neg, d, htext, hd⟩ := @NumberLayout.exists_decimal .plain rfl x hx
  obtain ⟨whole, fraction, hdecimal, hwritten⟩ := NumberLayout.exists_written d
  refine ⟨neg, d, whole, fraction, ?_, hwritten, hd⟩
  rw [← hdecimal, ← htext, String.ofList_toList]

/-- **A double is read back** from its plain text, if it is a number. -/
theorem readFloat_text (h : x.isNaN = false) : readFloat (NumberLayout.plain.text x) = .ok x := by
  rcases isFinite_or_eq_infinity h with hx | rfl | rfl
  · obtain ⟨neg, d, whole, fraction, htext, hwritten, hd⟩ := exists_text hx
    rw [htext, readFloat_digits hwritten, hd]
  · rw [text_infinity]
    rfl
  · rw [text_neg_infinity]
    rfl

theorem isBlank_of_mem_sign {neg : Bool} {c : Char} (h : c ∈ if neg then ['-'] else []) :
    Text.isBlank c = false := by
  split at h
  · rw [List.mem_singleton.1 h]
    rfl
  · cases h

/-- There are no blanks in the text of a double. -/
theorem trim_floatText (h : x.isNaN = false) :
    Text.trim (NumberLayout.plain.text x) = NumberLayout.plain.text x := by
  rcases isFinite_or_eq_infinity h with hx | rfl | rfl
  · obtain ⟨neg, d, whole, fraction, htext, hwritten, -⟩ := exists_text hx
    rw [htext]
    refine Text.trim_of_forall fun c hc => ?_
    rw [String.toList_ofList, List.mem_append, List.mem_append] at hc
    rcases hc with hsign | hwhole | hfraction
    · exact isBlank_of_mem_sign hsign
    · exact Text.isBlank_of_isDigit (hwritten.whole_digits c hwhole)
    · rw [fractionChars] at hfraction
      split at hfraction
      · cases hfraction
      · rcases List.mem_cons.1 hfraction with rfl | hdigit
        · rfl
        · exact Text.isBlank_of_isDigit (hwritten.fraction_digits c hdigit)
  · rw [text_infinity]
    rfl
  · rw [text_neg_infinity]
    rfl

/-! ### Integers -/

/-- How a 64-bit integer is written. -/
theorem toList_toString_int64 (v : Int64) : (toString v).toList =
    (if decide (v.toInt < 0) = true then ['-'] else []) ++ Nat.toDigits 10 v.toInt.natAbs := by
  rw [show toString v = toString v.toInt from rfl, toList_toString_int]
  simp only [decide_eq_true_eq]

/-- **A 64-bit integer is read back** from its text. -/
theorem readInt64_text (v : Int64) : readInt64 (toString v) = .ok v := by
  have hdigits : ∀ c ∈ Nat.toDigits 10 v.toInt.natAbs, c.isDigit = true :=
    fun c hc => isDigit_toDigits hc
  have htake : (Nat.toDigits 10 v.toInt.natAbs).takeWhile Char.isDigit =
      Nat.toDigits 10 v.toInt.natAbs :=
    List.takeWhile_eq_self_iff.2 hdigits
  have hsign := splitSign_digits (s := []) Nat.toDigits_ne_nil hdigits (decide (v.toInt < 0))
  rw [List.append_nil] at hsign
  rw [readInt64, toList_toString_int64]
  split
  · next heq => exact absurd (List.append_eq_nil_iff.1 heq).2 Nat.toDigits_ne_nil
  · rw [hsign]
    dsimp only
    rw [htake, digitsValue_toDigits, int64?_toInt]
    simp

/-- There are no blanks in the text of a 64-bit integer. -/
theorem trim_intText (v : Int64) : Text.trim (toString v) = toString v := by
  refine Text.trim_of_forall fun c hc => ?_
  rw [toList_toString_int64, List.mem_append] at hc
  rcases hc with hsign | hdigit
  · exact isBlank_of_mem_sign hsign
  · exact Text.isBlank_of_isDigit (isDigit_toDigits hdigit)

end TradeSignals
