import TradeSignals.Decimal.Layout
import TradeSignals.Expr.Basic
import TradeSignals.Expr.Quote

/-!
# Writing expressions

Every expression has one canonical text. Arguments are separated by a comma and a
space, keyword arguments are written `key=value`, and a number with a fraction shows
it. The canonical text of a call is also the key under which its value is kept, so
nothing that tells two expressions apart may be lost in it.

A second, shorter text describes an expression in messages: what kind it is, with
its value, but only the name of a call.
-/

namespace TradeSignals

/-- The spelling of a truth value. -/
def truthText (value : Bool) : String :=
  if value then "True" else "False"

/-- The canonical text of a constant. -/
def Literal.chars : Literal → List Char
  | .int value => (toString value).toList
  | .float value => (NumberLayout.canonical.text value).toList
  | .bool value => (truthText value).toList
  | .text value => Quote.quote value.toList
  | .none => "None".toList

namespace Expr

/-- What stands between two arguments. -/
def separator : List Char := [',', ' ']

mutual

/-- The characters of the canonical text. -/
def chars : Expr → List Char
  | .literal value => value.chars
  | .member kind item => kind.toList ++ '.' :: item.toList
  | .name word => word.toList
  | .call callee positional keywords =>
    callee.toList ++ '(' ::
      (separator.intercalate (charsPositional positional ++ charsKeywords keywords) ++ [')'])

/-- The canonical texts of positional arguments. -/
def charsPositional : List Expr → List (List Char)
  | [] => []
  | e :: rest => e.chars :: charsPositional rest

/-- The canonical texts of keyword arguments. -/
def charsKeywords : List (String × Expr) → List (List Char)
  | [] => []
  | (key, e) :: rest => (key.toList ++ '=' :: e.chars) :: charsKeywords rest

end

/-- **The canonical text** of an expression. -/
def text (e : Expr) : String :=
  String.ofList e.chars

/-- The text that names an expression in a message. -/
def describe : Expr → String
  | .literal (.int value) => s!"int {value}"
  | .literal (.float value) => "float " ++ NumberLayout.canonical.text value
  | .literal (.bool value) => "bool " ++ truthText value
  | .literal (.text value) => "string " ++ String.ofList (Quote.quote value.toList)
  | .literal .none => "None"
  | .member kind item => s!"enum {kind}.{item}"
  | .name word => s!"name {word}"
  | .call callee _ _ => s!"call {callee}"

/-- Positional arguments are written one by one. -/
theorem charsPositional_eq (es : List Expr) : charsPositional es = es.map chars := by
  induction es with
  | nil => rfl
  | cons e rest ih => simp [charsPositional, ih]

/-- Keyword arguments are written one by one. -/
theorem charsKeywords_eq (kes : List (String × Expr)) :
    charsKeywords kes = kes.map fun ke => ke.1.toList ++ '=' :: ke.2.chars := by
  induction kes with
  | nil => rfl
  | cons ke rest ih => simp [charsKeywords, ih]

/-- The canonical text of a call. -/
theorem chars_call (callee : String) (positional : List Expr)
    (keywords : List (String × Expr)) :
    (call callee positional keywords).chars = callee.toList ++ '(' ::
      (separator.intercalate (positional.map chars ++
        keywords.map fun ke => ke.1.toList ++ '=' :: ke.2.chars) ++ [')']) := by
  rw [chars, charsPositional_eq, charsKeywords_eq]

example : (call "SMA" [quoted "AAPL"] [("length", int 20)]).text = "SMA('AAPL', length=20)" :=
  rfl

end Expr

end TradeSignals
