/-!
# Blank characters

What separates the words of a text: the characters with the Unicode property
*White_Space*. There are twenty-five of them, far more than core's own notion
holds, and both the expression reader and the trimming of fields and configuration
values go by this one.
-/

namespace TradeSignals.Text

/-- Blank characters: tabulations, line and page breaks, and spaces of every width. -/
def isBlank (c : Char) : Bool :=
  let code := c.toNat
  (0x09 ≤ code && code ≤ 0x0D) || code == 0x20 || code == 0x85 || code == 0xA0 ||
    code == 0x1680 || (0x2000 ≤ code && code ≤ 0x200A) || code == 0x2028 || code == 0x2029 ||
    code == 0x202F || code == 0x205F || code == 0x3000

/-- A text from its first character that is not blank. -/
def skipBlanks (s : List Char) : List Char :=
  s.dropWhile isBlank

/-- The blanks at both ends of a text removed. -/
def trimmed (s : List Char) : List Char :=
  (skipBlanks (skipBlanks s).reverse).reverse

/-- The blanks at both ends of a string removed. -/
def trim (s : String) : String :=
  String.ofList (trimmed s.toList)

/-- Skipping blanks never lengthens a text. -/
theorem length_skipBlanks_le (s : List Char) : (skipBlanks s).length ≤ s.length :=
  (List.dropWhile_suffix _).length_le

/-- A text that begins with a character that is not blank is left alone. -/
theorem skipBlanks_cons_of_not_isBlank {c : Char} (s : List Char) (h : isBlank c = false) :
    skipBlanks (c :: s) = c :: s := by
  simp [skipBlanks, h]

/-- Blanks in front of a text do not matter. -/
theorem skipBlanks_append {blanks : List Char} (s : List Char)
    (h : ∀ c ∈ blanks, isBlank c = true) : skipBlanks (blanks ++ s) = skipBlanks s := by
  induction blanks with
  | nil => rfl
  | cons c rest ih =>
    have hc : isBlank c = true := h c List.mem_cons_self
    have hrest := ih fun d hd => h d (List.mem_cons_of_mem _ hd)
    simpa [skipBlanks, hc] using hrest

/-- After skipping, the first character is not blank. -/
theorem skipBlanks_skipBlanks (s : List Char) : skipBlanks (skipBlanks s) = skipBlanks s := by
  induction s with
  | nil => rfl
  | cons c rest ih =>
    by_cases h : isBlank c = true
    · simpa [skipBlanks, h] using ih
    · simp [skipBlanks, h]

/-- How many bytes a text takes in UTF-8. -/
def byteLength (s : List Char) : Nat :=
  s.foldr (fun c bytes => c.utf8Size + bytes) 0

/-- The empty text takes no byte. -/
@[simp] theorem byteLength_nil : byteLength [] = 0 := rfl

/-- The length in bytes, character by character. -/
@[simp] theorem byteLength_cons (c : Char) (s : List Char) :
    byteLength (c :: s) = c.utf8Size + byteLength s := rfl

/-- Lengths in bytes add up. -/
@[simp] theorem byteLength_append (s t : List Char) :
    byteLength (s ++ t) = byteLength s + byteLength t := by
  induction s with
  | nil => simp
  | cons c s ih => simp [ih, Nat.add_assoc]

end TradeSignals.Text
