/-!
# Quoted texts

A text constant is written between single quotes. Four characters cannot stand for
themselves there and are written as a backslash and a letter or sign: the backslash,
the quote, the line feed and the tabulation. The reader knows one escape more, the
double quote, which it also accepts as the delimiter.
-/

namespace TradeSignals.Quote

/-- The sign after the backslash for the characters that are written escaped. -/
def escape? (c : Char) : Option Char :=
  if c = '\x5c' then some '\x5c'
  else if c = '\x27' then some '\x27'
  else if c = '\n' then some 'n'
  else if c = '\t' then some 't'
  else none

/-- The character that a backslash and a sign stand for. -/
def unescape? (sign : Char) : Option Char :=
  if sign = 'n' then some '\n'
  else if sign = 't' then some '\t'
  else if sign = '\x5c' ∨ sign = '\x27' ∨ sign = '\x22' then some sign
  else none

/-- One character of a quoted text. -/
def encodeChar (c : Char) : List Char :=
  match escape? c with
  | some sign => ['\x5c', sign]
  | none => [c]

/-- The characters between the quotes. -/
def encode (s : List Char) : List Char :=
  s.flatMap encodeChar

/-- **A text between single quotes.** -/
def quote (s : List Char) : List Char :=
  '\x27' :: (encode s ++ ['\x27'])

/-- The reader undoes every escape. -/
theorem unescape?_of_escape? {c sign : Char} (h : escape? c = some sign) :
    unescape? sign = some c := by
  simp only [escape?] at h
  split at h
  · next hc => cases h; subst hc; rfl
  · split at h
    · next hc => cases h; subst hc; rfl
    · split at h
      · next hc => cases h; subst hc; rfl
      · split at h
        · next hc => cases h; subst hc; rfl
        · cases h

end TradeSignals.Quote
