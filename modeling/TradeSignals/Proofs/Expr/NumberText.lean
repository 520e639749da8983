import TradeSignals.Expr.Parser
import TradeSignals.Expr.Printer
import TradeSignals.Proofs.Decimal.Shapes

/-!
# Numbers of strategy text read back

The reader of numbers is more generous than the writer: it lets underscores stand among
the digits, it reads a point without a digit on one side of it, and a sign may stand
apart. What is written is one of a few shapes (`TradeSignals.NumberLayout.exists_parts`).
Read as a numeral, the parts have the value of the decimal they were written for, and since
a decimal is read by its value alone the double comes back
(`TradeSignals.Parser.value_float`).

Nothing may follow a number that could belong to it. That is a condition on the text
after it, `TradeSignals.Parser.Apart`, which white space, commas, parentheses and the end
of the text meet.
-/

namespace TradeSignals

namespace Parser

/-- **Nothing that follows could belong to a word or a number**: the text ends, or goes
on with a character that continues neither. -/
def Apart (rest : List Char) : Prop :=
  ∀ c, rest.head? = some c → Text.continuesWord c = false ∧ c ≠ '.'

theorem continuesWord_of_isDigit {c : Char} (h : c.isDigit = true) :
    Text.continuesWord c = true := by
  have hlt : c.toNat < 0x80 := by
    simp only [Char.isDigit, Bool.and_eq_true, decide_eq_true_eq] at h
    have h2 : c.val.toNat ≤ 57 := h.2
    have h3 : c.toNat = c.val.toNat := rfl
    omega
  simp [Text.continuesWord, Text.isNumeral, hlt, h]

/-! ### Reading the parts -/

/-- Digits are kept. -/
theorem mantissa_digits {ds : List Char} (h : ∀ c ∈ ds, c.isDigit = true)
    (seenDigit seenPoint : Bool) (s : List Char) : mantissa seenDigit seenPoint (ds ++ s) =
      (ds ++ (mantissa (seenDigit || !ds.isEmpty) seenPoint s).1,
        (mantissa (seenDigit || !ds.isEmpty) seenPoint s).2) := by
  induction ds generalizing seenDigit with
  | nil => simp
  | cons c ds ih =>
    have hc := h c List.mem_cons_self
    have hrest := ih (fun d hd => h d (List.mem_cons_of_mem _ hd)) true
    rw [List.cons_append, mantissa, if_pos hc, hrest]
    simp

/-- Nothing is kept of a text that could not go on. -/
theorem mantissa_of_apart {s : List Char} (h : Apart s) (seenDigit seenPoint : Bool) :
    mantissa seenDigit seenPoint s = ([], s) := by
  cases s with
  | nil => rfl
  | cons c s =>
    obtain ⟨hc, hpoint⟩ := h c rfl
    -- Digits and underscores continue a word, and a point is excluded.
    have hdigit : ¬c.isDigit = true := fun hd => by
      rw [continuesWord_of_isDigit hd] at hc
      cases hc
    have hline : ¬(c = '_' ∧ seenDigit = true) := by
      rintro ⟨rfl, -⟩
      revert hc
      decide
    rw [mantissa, if_neg hdigit, if_neg hline, if_neg (fun hp => hpoint hp.1)]

theorem takeWhile_digits {ds s : List Char} (h : ∀ c ∈ ds, c.isDigit = true) (hs : Apart s) :
    (ds ++ s).takeWhile Char.isDigit = ds ∧ (ds ++ s).dropWhile Char.isDigit = s := by
  -- What stands apart does not begin with a digit.
  have hstop : s.takeWhile Char.isDigit = [] ∧ s.dropWhile Char.isDigit = s := by
    cases s with
    | nil => exact ⟨rfl, rfl⟩
    | cons c s =>
      have hc : c.isDigit = false := by
        by_contra hd
        have hnot := (hs c rfl).1
        rw [continuesWord_of_isDigit (by simpa using hd)] at hnot
        cases hnot
      simp [hc]
  rw [List.takeWhile_append_of_pos h, List.dropWhile_append_of_pos h, hstop.1, hstop.2]
  simp

/-- **A power of ten is read back.** -/
theorem exponent_powerChars {s : List Char} (hs : Apart s) (power : Option ℤ) :
    exponent (powerChars power ++ s) = .ok (power, s) := by
  cases power with
  | none =>
    cases s with
    | nil => rfl
    | cons c s =>
      have hc : ¬(c = 'e' ∨ c = 'E') := by
        have h := (hs c rfl).1
        rintro (rfl | rfl) <;> revert h <;> decide
      simp only [powerChars, List.nil_append, exponent, if_neg hc]
  | some p =>
    have hsign := splitSign_digits (s := s) (Nat.toDigits_ne_nil (n := p.natAbs) (b := 10))
      (fun c hc => isDigit_toDigits hc) (decide (p < 0))
    obtain ⟨htake, hdrop⟩ := @takeWhile_digits (Nat.toDigits 10 p.natAbs) s
      (fun c hc => isDigit_toDigits hc) hs
    have htext : (toString p).toList ++ s =
        (if decide (p < 0) = true then ['-'] else []) ++ (Nat.toDigits 10 p.natAbs ++ s) := by
      rw [toList_toString_int, List.append_assoc]
      simp
    simp only [powerChars, List.cons_append, exponent, true_or, if_true, htext, hsign, htake,
      hdrop, if_neg Nat.toDigits_ne_nil, digitsValue_toDigits]
    by_cases h : p < 0
    · simp only [h, decide_true, if_true]
      congr 3
      omega
    · simp only [h, decide_false, Bool.false_eq_true, if_false]
      congr 3
      omega

theorem continues_apart {s : List Char} (hs : Apart s) :
    (s.head?.map Text.continuesWord).getD false = false := by
  cases s with
  | nil => rfl
  | cons c s => exact (hs c rfl).1

/-- The digits of a number are kept up to its power of ten. -/
theorem mantissa_parts {whole fraction s : List Char} {power : Option ℤ} (hne : whole ≠ [])
    (hwhole : ∀ c ∈ whole, c.isDigit = true) (hfraction : ∀ c ∈ fraction, c.isDigit = true)
    (hs : Apart s) :
    mantissa false false (whole ++ (fractionChars fraction ++ (powerChars power ++ s))) =
      (whole ++ fractionChars fraction, powerChars power ++ s) := by
  -- An `e` is not kept, and neither is what stands apart.
  have hstop : ∀ seenPoint, mantissa true seenPoint (powerChars power ++ s) =
      ([], powerChars power ++ s) := by
    intro seenPoint
    cases power with
    | none => exact mantissa_of_apart hs true seenPoint
    | some p => rfl
  have hempty : (false || !whole.isEmpty) = true := by
    simp [hne]
  rw [mantissa_digits hwhole, hempty, fractionChars]
  -- Without digits after the point there is no point either.
  by_cases hf : fraction = []
  · rw [if_pos hf, List.nil_append, hstop]
  · have hpoint : mantissa true false ('.' :: (fraction ++ (powerChars power ++ s))) =
        ('.' :: (mantissa true true (fraction ++ (powerChars power ++ s))).1,
          (mantissa true true (fraction ++ (powerChars power ++ s))).2) := rfl
    rw [if_neg hf, List.cons_append, hpoint, mantissa_digits hfraction, Bool.true_or, hstop,
      List.append_nil]

/-- **The parts of a decimal are read as its double.** -/
theorem numberValue?_parts {d : Decimal} {whole fraction : List Char} {power : Option ℤ}
    (h : NumberLayout.Parts d whole fraction power) (neg : Bool) :
    numberValue? neg (whole ++ fractionChars fraction) power =
      some (.float (if neg then -d.toFloat else d.toFloat)) := by
  have hdigit : ∀ c ∈ whole, decide (c ≠ '.') = true := by
    intro c hc
    rw [decide_eq_true_eq]
    rintro rfl
    exact absurd (h.whole_digits _ hc) (by decide)
  -- Without a power there is a point, so this is no integer.
  have hmarked : ¬((power.isNone = true) ∧ (!(whole ++ fractionChars fraction).contains '.') =
      true) := by
    rintro ⟨hnone, hpoint⟩
    have hf := h.marked (Option.isNone_iff_eq_none.1 hnone)
    simp [fractionChars, hf] at hpoint
  -- The reader splits at the point, and so finds the two lists of digits again.
  have htake : (whole ++ fractionChars fraction).takeWhile (· ≠ '.') = whole := by
    rw [List.takeWhile_append_of_pos hdigit, fractionChars]
    split <;> simp
  have hdrop : ((whole ++ fractionChars fraction).dropWhile (· ≠ '.')).drop 1 = fraction := by
    rw [List.dropWhile_append_of_pos hdigit, fractionChars]
    split
    · next hf => simp [hf]
    · simp
  have hvalue := Decimal.toFloat_congr h.value_eq
  rw [numberValue?, if_neg hmarked, htake, hdrop, Numeral.toFloat]
  dsimp only
  rw [hvalue]

/-- **Nothing but digits** makes an integer, and no double. -/
theorem numberValue?_digits {ds : List Char} (h : ∀ c ∈ ds, c.isDigit = true) (neg : Bool) :
    numberValue? neg ds none = (int64? neg (digitsValue ds)).map .int := by
  have hpoint : ds.contains '.' = false := by
    rw [List.contains_eq_mem, decide_eq_false_iff_not]
    exact fun hmem => absurd (h _ hmem) (by decide)
  rw [numberValue?, hpoint, if_pos ⟨rfl, rfl⟩]

/-! ### Reading numbers back -/

/-- Digits with perhaps a minus sign in front are read as a number of these digits. -/
theorem number_parts {whole fraction s : List Char} {power : Option ℤ} {neg : Bool}
    {value : Literal} (hne : whole ≠ []) (hwhole : ∀ c ∈ whole, c.isDigit = true)
    (hfraction : ∀ c ∈ fraction, c.isDigit = true) (hs : Apart s)
    (hvalue : numberValue? neg (whole ++ fractionChars fraction) power = some value) :
    number ((if neg then ['-'] else []) ++
      (whole ++ (fractionChars fraction ++ (powerChars power ++ s)))) =
        .ok (.literal value, s) := by
  obtain ⟨c, ds, rfl⟩ := List.exists_cons_of_ne_nil hne
  have hc := hwhole c List.mem_cons_self
  have hskip : Text.skipBlanks (c :: ds ++ (fractionChars fraction ++ (powerChars power ++ s))) =
      c :: ds ++ (fractionChars fraction ++ (powerChars power ++ s)) :=
    Text.skipBlanks_cons_of_not_isBlank _ (Text.isBlank_of_isDigit hc)
  have hany : ¬(!(c :: ds ++ fractionChars fraction).any Char.isDigit) = true := by
    simp [hc]
  rw [number, splitSign_digits hne hwhole]
  dsimp only
  rw [hskip, mantissa_parts hne hwhole hfraction hs]
  dsimp only
  rw [if_neg hany, exponent_powerChars hs]
  dsimp only
  rw [continues_apart hs, if_neg Bool.false_ne_true, hvalue]

/-- A sign and a digit in front make a value a number. -/
theorem value_signed {call : CallReader} {neg : Bool} {whole s : List Char} (hne : whole ≠ [])
    (hwhole : ∀ c ∈ whole, c.isDigit = true) :
    value call ((if neg then ['-'] else []) ++ (whole ++ s)) =
      number ((if neg then ['-'] else []) ++ (whole ++ s)) := by
  obtain ⟨c, ds, rfl⟩ := List.exists_cons_of_ne_nil hne
  have hc := hwhole c List.mem_cons_self
  cases neg with
  | true => rfl
  | false =>
    rw [if_neg Bool.false_ne_true, List.nil_append, List.cons_append, value,
      Text.skipBlanks_cons_of_not_isBlank _ (Text.isBlank_of_isDigit hc)]
    dsimp only
    rw [hc, Bool.true_or, Bool.true_or, Bool.true_or, if_pos rfl]

/-- **A finite double is read back** from its canonical text. -/
theorem value_float {call : CallReader} {x : Float} (hx : x.isFinite = true) {s : List Char}
    (hs : Apart s) :
    value call ((NumberLayout.canonical.text x).toList ++ s) = .ok (.float x, s) := by
  obtain ⟨neg, d, htext, hd⟩ := @NumberLayout.exists_decimal .canonical rfl x hx
  obtain ⟨whole, fraction, power, hdecimal, hparts⟩ := NumberLayout.exists_parts d
  have hsplit : (NumberLayout.canonical.text x).toList ++ s = (if neg then ['-'] else []) ++
      (whole ++ (fractionChars fraction ++ (powerChars power ++ s))) := by
    rw [htext, hdecimal]
    simp only [List.append_assoc]
  -- The parts have the value of the decimal, so they are read as the same double.
  have hvalue := numberValue?_parts hparts neg
  rw [hd] at hvalue
  rw [hsplit, value_signed hparts.whole_ne_nil hparts.whole_digits]
  exact number_parts hparts.whole_ne_nil hparts.whole_digits hparts.fraction_digits hs hvalue

/-- The first character of a number. -/
def BeginsNumber (s : List Char) : Prop :=
  ∃ c cs, s = c :: cs ∧ (c.isDigit = true ∨ c = '-')

theorem beginsNumber_signed {neg : Bool} {whole : List Char} (hne : whole ≠ [])
    (hwhole : ∀ c ∈ whole, c.isDigit = true) (s : List Char) :
    BeginsNumber ((if neg then ['-'] else []) ++ (whole ++ s)) := by
  obtain ⟨c, ds, rfl⟩ := List.exists_cons_of_ne_nil hne
  cases neg with
  | true => exact ⟨'-', _, rfl, .inr rfl⟩
  | false => exact ⟨c, ds ++ s, rfl, .inl (hwhole c List.mem_cons_self)⟩

theorem beginsNumber_float {x : Float} (hx : x.isFinite = true) :
    BeginsNumber (NumberLayout.canonical.text x).toList := by
  obtain ⟨neg, d, htext, -⟩ := @NumberLayout.exists_decimal .canonical rfl x hx
  obtain ⟨whole, fraction, power, hdecimal, hparts⟩ := NumberLayout.exists_parts d
  rw [htext, hdecimal, List.append_assoc]
  exact beginsNumber_signed hparts.whole_ne_nil hparts.whole_digits _

theorem beginsNumber_int (v : Int64) : BeginsNumber (toString v).toList := by
  have h := @beginsNumber_signed (decide (v.toInt < 0)) _ Nat.toDigits_ne_nil
    (fun c hc => isDigit_toDigits (n := v.toInt.natAbs) hc) []
  rw [show toString v = toString v.toInt from rfl, toList_toString_int]
  simpa using h

/-- **An integer is read back** from its text. -/
theorem value_int {call : CallReader} (v : Int64) {s : List Char} (hs : Apart s) :
    value call ((toString v).toList ++ s) = .ok (.int v, s) := by
  have hdigits : ∀ c ∈ Nat.toDigits 10 v.toInt.natAbs, c.isDigit = true :=
    fun c hc => isDigit_toDigits hc
  have hsplit : (toString v).toList ++ s = (if decide (v.toInt < 0) = true then ['-'] else []) ++
      (Nat.toDigits 10 v.toInt.natAbs ++ (fractionChars [] ++ (powerChars none ++ s))) := by
    rw [show toString v = toString v.toInt from rfl, toList_toString_int]
    simp [fractionChars, powerChars]
  have hvalue : numberValue? (decide (v.toInt < 0))
      (Nat.toDigits 10 v.toInt.natAbs ++ fractionChars []) none = some (.int v) := by
    rw [fractionChars, if_pos rfl, List.append_nil, numberValue?_digits hdigits,
      digitsValue_toDigits, int64?_toInt, Option.map_some]
  rw [hsplit, value_signed Nat.toDigits_ne_nil hdigits]
  exact number_parts Nat.toDigits_ne_nil hdigits (by simp) hs hvalue

end Parser

end TradeSignals
