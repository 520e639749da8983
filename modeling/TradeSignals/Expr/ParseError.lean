import TradeSignals.Text.Blank

/-!
# Parse errors

What can be wrong with the text of an expression, and where. While reading, a fault
is pinned to the text that was still unread; the error that is handed out counts the
bytes before that place, so its position always lies on the boundary of a character.
-/

namespace TradeSignals

/-- What is wrong with the text of an expression. *Found* is the character at the
place of the fault, absent at the end of the text. -/
inductive ParseFault where
  /-- Something that is neither a literal nor a name stands where a value should. -/
  | expectedExpression (found : Option Char)
  /-- No identifier follows the dot of a dotted name. -/
  | expectedIdentifier (found : Option Char)
  /-- A sign or a point without a digit. -/
  | expectedNumber
  /-- An exponent without a digit. -/
  | expectedExponent
  /-- A number runs into a letter, a numeral or an underscore. -/
  | badNumber (found : Option Char)
  /-- An integer of more than 64 bits. -/
  | integerRange (literal : String)
  /-- A quoted text without its closing quote. -/
  | unterminated
  /-- A backslash before a character that has no escape. -/
  | badEscape (sign : Char)
  /-- A line break inside a quoted text. -/
  | lineBreak
  /-- Calls inside calls beyond the limit. -/
  | tooDeep (limit : Nat)
  /-- A keyword given twice in one call. -/
  | repeatedKeyword (key : String)
  /-- A positional argument after a keyword argument. -/
  | latePositional
  /-- Neither a comma nor a closing parenthesis follows an argument. -/
  | expectedSeparator (found : Option Char)
  /-- Something follows the expression. -/
  | trailing (rest : String)
deriving DecidableEq

/-- How the character at a place is shown. -/
def foundText : Option Char → String
  | some c => s!"'{c}'"
  | none => "end of input"

/-- What is said about a fault. -/
def ParseFault.message : ParseFault → String
  | .expectedExpression found => "expected expression, found " ++ foundText found
  | .expectedIdentifier found => "expected identifier, found " ++ foundText found
  | .expectedNumber => "expected number"
  | .expectedExponent => "expected exponent digits"
  | .badNumber found => "invalid number literal near " ++ foundText found
  | .integerRange literal => s!"integer out of range: {literal}"
  | .unterminated => "unterminated string"
  | .badEscape sign => "unsupported escape '\\" ++ s!"{sign}'"
  | .lineBreak => "newline in string literal"
  | .tooDeep limit => s!"nesting deeper than {limit} calls"
  | .repeatedKeyword key => s!"keyword argument repeated: {key}"
  | .latePositional => "positional argument follows keyword argument"
  | .expectedSeparator found => "expected ',' or ')', found " ++ foundText found
  | .trailing rest => s!"unexpected input after expression: '{rest}'"

/-- A fault and where it is. -/
structure ParseError where
  /-- How many bytes of the text lie before the fault. -/
  position : Nat
  /-- What is wrong there. -/
  fault : ParseFault
deriving DecidableEq

namespace ParseError

/-- What is said about the fault. -/
def message (e : ParseError) : String := e.fault.message

/-- The error on one line. -/
def text (e : ParseError) : String :=
  s!"parse error at position {e.position}: {e.message}"

/-- The error under the text it is about, with a mark below the place. -/
def inContext (e : ParseError) (source : String) : String :=
  source ++ "\n" ++ String.ofList (List.replicate e.position ' ') ++ "^\n" ++ e.text

end ParseError

/-- A fault pinned to the unread text at its place. -/
structure Halt where
  /-- The text from the place of the fault on. -/
  unread : List Char
  /-- What is wrong there. -/
  fault : ParseFault
deriving DecidableEq

/-- The error for a fault in a text: the bytes that were read are those that are not
unread. -/
def Halt.error (source : List Char) (h : Halt) : ParseError :=
  ⟨Text.byteLength source - Text.byteLength h.unread, h.fault⟩

end TradeSignals
