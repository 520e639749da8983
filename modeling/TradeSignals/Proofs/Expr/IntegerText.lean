import Mathlib.Data.Nat.Digits.Defs
import TradeSignals.Proofs.Expr.NumberText
import TradeSignals.Proofs.Expr.Spelling

/-!
# Integers are read exactly or refused

Strategy text has more integers than the canonical ones: a plus sign may stand in front, blanks
may follow the sign, zeros may lead, and underscores may stand anywhere after the first digit.
Such a text, `TradeSignals.IntegerText`, has the value that its digits have in the decimal
system, and the reader of numbers gives exactly this value if it is one of 64 bits; otherwise
it refuses the text, with a fault pinned to its first character
(`TradeSignals.Parser.number_integerText`).

Only the text is looked at to tell integers from doubles. A double comes from a text with a
point or an exponent in it, so that an integer which is too large does not become one.
-/

namespace TradeSignals

/-! ### Texts of integers -/

/-- **The text of an integer**: perhaps a sign, then perhaps blanks, and a run of digits and
underscores that begins with a digit. Without a sign there is nothing for blanks to follow. -/
structure IntegerText where
  /-- The sign, if there is one. -/
  sign : Option Char
  /-- A sign is a plus or a minus. -/
  sign_eq : ∀ c, sign = some c → c = '+' ∨ c = '-'
  /-- What stands between the sign and the digits. -/
  blanks : List Char
  /-- Only blanks stand there. -/
  isBlank_of_mem : ∀ c ∈ blanks, Text.isBlank c = true
  /-- Blanks follow a sign. -/
  blanks_eq_nil : sign = none → blanks = []
  /-- The first digit. -/
  first : Char
  /-- The run begins with a digit. -/
  isDigit_first : first.isDigit = true
  /-- The rest of the run. -/
  run : List Char
  /-- The run goes on with digits and underscores. -/
  isDigit_or_eq : ∀ c ∈ run, c.isDigit = true ∨ c = '_'

namespace IntegerText

/-- The characters of the text. -/
def chars (l : IntegerText) : List Char :=
  l.sign.toList ++ (l.blanks ++ l.first :: l.run)

/-- The digits alone. -/
def digits (l : IntegerText) : List Char :=
  l.first :: l.run.filter Char.isDigit

/-- Whether the sign is a minus. -/
def negative (l : IntegerText) : Bool :=
  l.sign == some '-'

/-- The number that the digits stand for in the decimal system, the last digit being that of
the ones. -/
def size (l : IntegerText) : ℕ :=
  Nat.ofDigits 10 (l.digits.reverse.map fun c => c.toNat - '0'.toNat)

/-- **The value of the text**: its size with its sign. -/
def value (l : IntegerText) : ℤ :=
  if l.negative then -l.size else l.size

/-- The value is one of 64 bits. -/
def Fits (l : IntegerText) : Prop :=
  -2 ^ 63 ≤ l.value ∧ l.value ≤ 2 ^ 63 - 1

/-- How a refused integer is named: without its plus sign, its blanks and its underscores. -/
def spelled (l : IntegerText) : String :=
  String.ofList (if l.negative then '-' :: l.digits else l.digits)

theorem isDigit_of_mem_digits {l : IntegerText} : ∀ c ∈ l.digits, c.isDigit = true :=
  List.forall_mem_cons.2 ⟨l.isDigit_first, fun _ hc => List.of_mem_filter hc⟩

end IntegerText

/-- What a fold over digits computes is the number that they stand for. -/
theorem digitsValue_eq_ofDigits (ds : List Char) :
    digitsValue ds = Nat.ofDigits 10 (ds.reverse.map fun c => c.toNat - '0'.toNat) := by
  induction ds using List.reverseRecOn with
  | nil => rfl
  | append_singleton ds c ih =>
    rw [List.reverse_concat, List.map_cons, Nat.ofDigits_cons, ← ih, digitsValue, digitsValue,
      List.foldl_concat]
    exact Nat.add_comm _ _

theorem splitSign_suffix (s : List Char) : (splitSign s).2 <:+ s := by
  unfold splitSign
  split
  · exact List.suffix_cons _ _
  · exact List.suffix_cons _ _
  · exact List.suffix_rfl

namespace Parser

/-! ### What may follow an integer -/

/-- **A text ends, or a blank, a comma or a closing parenthesis follows.** -/
def Delimited (rest : List Char) : Prop :=
  ∀ c, rest.head? = some c → Text.isBlank c = true ∨ c = ',' ∨ c = ')'

theorem Delimited.apart {rest : List Char} (h : Delimited rest) : Apart rest := by
  intro c hc
  obtain hb | rfl | rfl := h c hc
  · refine ⟨Text.continuesWord_of_isBlank hb, ?_⟩
    rintro rfl
    revert hb
    decide
  · decide
  · decide

/-! ### Reading the digits -/

/-- After a digit, the digits of a run are kept and its underscores are not. -/
theorem mantissa_run {run s : List Char} (h : ∀ c ∈ run, c.isDigit = true ∨ c = '_')
    (hs : Apart s) (seenPoint : Bool) :
    mantissa true seenPoint (run ++ s) = (run.filter Char.isDigit, s) := by
  induction run with
  | nil => exact mantissa_of_apart hs true seenPoint
  | cons c run ih =>
    have hrest := ih fun d hd => h d (List.mem_cons_of_mem _ hd)
    obtain hc | rfl := h c List.mem_cons_self
    · rw [List.cons_append, mantissa, if_pos hc, hrest, List.filter_cons_of_pos hc]
    · exact hrest

/-! ### Reading integers -/

section

variable (l : IntegerText) {rest : List Char}

/-- The first character of an integer is a digit or a sign. -/
theorem exists_chars : ∃ c cs, l.chars = c :: cs ∧ (c.isDigit = true ∨ c = '+' ∨ c = '-') := by
  rw [IntegerText.chars]
  cases hsign : l.sign with
  | none =>
    rw [l.blanks_eq_nil hsign]
    exact ⟨l.first, l.run, rfl, .inl l.isDigit_first⟩
  | some c => exact ⟨c, _, rfl, .inr (l.sign_eq c hsign)⟩

/-- The sign of an integer is split off. -/
theorem splitSign_chars (rest : List Char) : splitSign (l.chars ++ rest) =
    (l.negative, l.blanks ++ l.first :: (l.run ++ rest)) := by
  rw [IntegerText.chars, IntegerText.negative]
  cases hsign : l.sign with
  | none =>
    rw [l.blanks_eq_nil hsign]
    exact @splitSign_digits [l.first] _ (by simp) (by simpa using l.isDigit_first) false
  | some c =>
    obtain rfl | rfl := l.sign_eq c hsign <;> simp [splitSign]

/-- **The reader takes an integer apart** into its sign and its digits. -/
theorem number_chars (hrest : Apart rest) : number (l.chars ++ rest) =
    match int64? l.negative l.size with
    | some n => .ok (.int n, rest)
    | none => .error ⟨l.chars ++ rest, .integerRange l.spelled⟩ := by
  have hskip : Text.skipBlanks (l.blanks ++ l.first :: (l.run ++ rest)) =
      l.first :: (l.run ++ rest) := by
    rw [Text.skipBlanks_append _ l.isBlank_of_mem,
      Text.skipBlanks_cons_of_not_isBlank _ (Text.isBlank_of_isDigit l.isDigit_first)]
  have hkept : mantissa false false (l.first :: (l.run ++ rest)) = (l.digits, rest) := by
    rw [mantissa, if_pos l.isDigit_first, mantissa_run l.isDigit_or_eq hrest]
    rfl
  have hany : ¬(!l.digits.any Char.isDigit) = true := by
    simp [IntegerText.digits, l.isDigit_first]
  have hvalue : numberValue? l.negative l.digits none = (int64? l.negative l.size).map .int := by
    rw [numberValue?_digits IntegerText.isDigit_of_mem_digits, digitsValue_eq_ofDigits]
    rfl
  have hpower : exponent rest = .ok (none, rest) := exponent_powerChars hrest none
  rw [number, splitSign_chars]
  dsimp only
  rw [hskip, hkept]
  dsimp only
  rw [if_neg hany, hpower]
  dsimp only
  rw [continues_apart hrest, if_neg Bool.false_ne_true, hvalue]
  cases int64? l.negative l.size <;> rfl

/-- A value that begins like a number is one, also after blanks. -/
theorem value_chars {call : CallReader} {front : List Char}
    (hfront : ∀ c ∈ front, Text.isBlank c = true) :
    value call (front ++ (l.chars ++ rest)) = number (l.chars ++ rest) := by
  obtain ⟨c, cs, hchars, hc⟩ := exists_chars l
  have hplain : Text.isBlank c = false := by
    obtain hc | rfl | rfl := hc
    · exact Text.isBlank_of_isDigit hc
    · decide
    · decide
  rw [hchars, List.cons_append, value, Text.skipBlanks_append _ hfront,
    Text.skipBlanks_cons_of_not_isBlank _ hplain]
  dsimp only
  rw [if_pos]
  obtain hc | rfl | rfl := hc
  · rw [hc, Bool.true_or, Bool.true_or, Bool.true_or]
  · simp
  · simp

end

/-! ### What is read as a double -/

/-- What is kept of a number are the characters that were read, without underscores. -/
theorem mantissa_eq (seenDigit seenPoint : Bool) (s : List Char) : ∃ taken,
    s = taken ++ (mantissa seenDigit seenPoint s).2 ∧
      (mantissa seenDigit seenPoint s).1 = taken.filter (· ≠ '_') := by
  fun_induction mantissa seenDigit seenPoint s with
  | case1 => exact ⟨[], rfl, rfl⟩
  | case2 _ seenPoint c rest hc kept after hm ih =>
    obtain ⟨taken, hsplit, hkept⟩ := ih
    rw [hm] at hsplit hkept
    have hline : c ≠ '_' := by
      rintro rfl
      revert hc
      decide
    exact ⟨c :: taken, by rw [hsplit]; rfl, by simpa [hline] using hkept⟩
  | case3 seenDigit seenPoint c rest _ hc ih =>
    obtain ⟨taken, hsplit, hkept⟩ := ih
    obtain ⟨rfl, -⟩ := hc
    exact ⟨'_' :: taken, by rw [List.cons_append, ← hsplit], by simpa using hkept⟩
  | case4 seenDigit seenPoint c rest _ _ hc kept after hm ih =>
    obtain ⟨taken, hsplit, hkept⟩ := ih
    rw [hm] at hsplit hkept
    obtain ⟨rfl, -⟩ := hc
    exact ⟨'.' :: taken, by rw [hsplit]; rfl, by simpa using hkept⟩
  | case5 => exact ⟨[], rfl, rfl⟩

/-- A power of ten is written after an `e`. -/
theorem exponent_eq {s after : List Char} {power : Option ℤ}
    (h : exponent s = .ok (power, after)) : ∃ taken, s = taken ++ after ∧
      (power.isSome = true → 'e' ∈ taken ∨ 'E' ∈ taken) := by
  unfold exponent at h
  split at h
  · next c rest =>
    split at h
    · next hc =>
      -- The sign and the digits of the power follow the letter.
      obtain ⟨taken, htaken⟩ : after <:+ rest := by
        simp only at h
        split at h
        · cases h
        · cases h
          exact (List.dropWhile_suffix _).trans (splitSign_suffix rest)
      refine ⟨c :: taken, by rw [List.cons_append, htaken], fun _ => ?_⟩
      obtain rfl | rfl := hc <;> simp
    · cases h
      exact ⟨[], rfl, fun hsome => by cases hsome⟩
  · cases h
    exact ⟨[], rfl, fun hsome => by cases hsome⟩

/-- **A double comes from a text with a point or an exponent in it.** -/
theorem marked_of_float {s after : List Char} {x : Float} (h : number s = .ok (.float x, after)) :
    ∃ taken, s = taken ++ after ∧ ('.' ∈ taken ∨ 'e' ∈ taken ∨ 'E' ∈ taken) := by
  obtain ⟨front, hfront⟩ : Text.skipBlanks (splitSign s).2 <:+ s :=
    (List.dropWhile_suffix _).trans (splitSign_suffix s)
  obtain ⟨run, hrun, hkept⟩ := mantissa_eq false false (Text.skipBlanks (splitSign s).2)
  unfold number at h
  dsimp only at h
  split at h
  · cases h
  · split at h
    · cases h
    · next power _ hpower =>
      obtain ⟨tail, htail, hsome⟩ := exponent_eq hpower
      split at h
      · cases h
      · split at h
        · next value hvalue =>
          cases h
          refine ⟨front ++ (run ++ tail), ?_, ?_⟩
          · rw [← hfront, List.append_assoc, List.append_assoc, ← htail, ← hrun]
          · -- Only without both would the digits be read as an integer.
            have hmarked : power.isSome = true ∨ '.' ∈ run := by
              by_contra hplain
              obtain ⟨hnone, hpoint⟩ := not_or.1 hplain
              have hinteger : power.isNone = true ∧ (!(mantissa false false
                  (Text.skipBlanks (splitSign s).2)).1.contains '.') = true := by
                refine ⟨by simpa using hnone, ?_⟩
                rw [hkept, Bool.not_eq_true', List.contains_eq_mem, decide_eq_false_iff_not]
                exact fun hmem => hpoint (List.mem_of_mem_filter hmem)
              rw [numberValue?, if_pos hinteger] at hvalue
              obtain ⟨n, -, hn⟩ := Option.map_eq_some_iff.1 hvalue
              cases hn
            simp only [List.mem_append]
            obtain hpower | hpoint := hmarked
            · obtain he | he := hsome hpower
              · exact .inr (.inl (.inr (.inr he)))
              · exact .inr (.inr (.inr (.inr he)))
            · exact .inl (.inr (.inl hpoint))
        · cases h

/-! ### The main theorem -/

/-- **Integers are read exactly or refused.** Where the text of an integer ends, or goes on with
a blank, a comma or a closing parenthesis, the reader of numbers gives the 64-bit integer with
the value of the text if there is one, and otherwise it is at fault at the first character of
the text. Values, which may have blanks in front, are read by it from this character on. And it
gives a double only for a text with a point or an exponent. -/
theorem number_integerText (l : IntegerText) {rest : List Char} (hrest : Delimited rest) :
    (l.Fits ↔ ∃ n : Int64, n.toInt = l.value ∧ number (l.chars ++ rest) = .ok (.int n, rest)) ∧
    (¬l.Fits →
      number (l.chars ++ rest) = .error ⟨l.chars ++ rest, .integerRange l.spelled⟩) ∧
    (∀ (call : CallReader) (front : List Char), (∀ c ∈ front, Text.isBlank c = true) →
      value call (front ++ (l.chars ++ rest)) = number (l.chars ++ rest)) ∧
    ∀ (s after : List Char) (x : Float), number s = .ok (.float x, after) →
      ∃ taken, s = taken ++ after ∧ ('.' ∈ taken ∨ 'e' ∈ taken ∨ 'E' ∈ taken) := by
  have hread := number_chars l hrest.apart
  rw [@int64?_eq l.negative l.size l.value rfl] at hread
  refine ⟨⟨fun hfits => ?_, ?_⟩, fun hfits => ?_, fun call front hfront => value_chars l hfront,
    fun s after x h => marked_of_float h⟩
  · rw [if_pos (show _ ∧ _ from hfits)] at hread
    exact ⟨_, Int64.toInt_ofInt_of_le hfits.1 (by have := hfits.2; omega), hread⟩
  · rintro ⟨n, hn, -⟩
    have hlow := n.le_toInt
    have hhigh := n.toInt_lt
    rw [IntegerText.Fits]
    omega
  · rwa [if_neg (show ¬(_ ∧ _) from hfits)] at hread

/-- The size of the least integer after a sign, with a blank and an underscore. -/
def edge (sign : Char) (hsign : sign = '+' ∨ sign = '-') : IntegerText where
  sign := some sign
  sign_eq := by simpa using hsign
  blanks := [' ']
  isBlank_of_mem := List.forall_mem_singleton.2 rfl
  blanks_eq_nil := by simp
  first := '9'
  isDigit_first := rfl
  run := ['_', '2', '2', '3', '3', '7', '2', '0', '3', '6', '8', '5', '4', '7', '7', '5', '8',
    '0', '8']
  isDigit_or_eq := by simp

theorem number_integerText_edge : Delimited [')'] ∧
    (∃ n : Int64, n.toInt = -2 ^ 63 ∧
      number ((edge '-' (.inr rfl)).chars ++ [')']) = .ok (.int n, [')'])) ∧
    number ((edge '+' (.inl rfl)).chars ++ [')']) =
      .error ⟨(edge '+' (.inl rfl)).chars ++ [')'], .integerRange "9223372036854775808"⟩ := by
  have hrest : Delimited [')'] := by
    rintro c ⟨⟩
    exact .inr (.inr rfl)
  have hsize : ∀ sign hsign, (edge sign hsign).size = 2 ^ 63 := by
    intro sign hsign
    simp [edge, IntegerText.size, IntegerText.digits, Nat.ofDigits_cons]
  have hminus : (edge '-' (.inr rfl)).value = -2 ^ 63 := by
    rw [IntegerText.value, hsize]
    rfl
  have hplus : (edge '+' (.inl rfl)).value = 2 ^ 63 := by
    rw [IntegerText.value, hsize]
    rfl
  refine ⟨hrest, ?_, ?_⟩
  · rw [← hminus]
    exact (number_integerText _ hrest).1.1 (by rw [IntegerText.Fits, hminus]; decide)
  · exact (number_integerText _ hrest).2.1 (by rw [IntegerText.Fits, hplus]; decide)

end Parser

end TradeSignals
