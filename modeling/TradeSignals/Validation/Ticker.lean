import TradeSignals.Text.Blank

/-!
# Tickers

The short name under which a security is traded. Only names of a safe form are let
through: they become names of files.
-/

namespace TradeSignals.Ticker

/-- How many bytes a ticker may have. -/
def maxLength : Nat := 12

/-- ASCII letters and digits. -/
def isPlain (c : Char) : Bool := c.isAlphanum

/-- What a ticker may begin with. -/
def begins (c : Char) : Bool := isPlain c || c == '^'

/-- What a ticker may go on with. -/
def continues (c : Char) : Bool := isPlain c || ['.', '-', '^', '='].contains c

/-- **A ticker** has a first character of its own kind and then letters, digits, dots,
dashes, carets and equals signs, twelve in all at most. -/
def isValid (text : String) : Bool :=
  match text.toList with
  | [] => false
  | first :: rest =>
    decide (Text.byteLength (first :: rest) ≤ maxLength) && begins first && rest.all continues

example : isValid "BRK.B" = true := by decide
example : isValid "^GSPC" = true := by decide
example : isValid "../etc" = false := by decide
example : isValid "" = false := by decide

end TradeSignals.Ticker
