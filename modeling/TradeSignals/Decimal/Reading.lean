import TradeSignals.Decimal.Basic
import TradeSignals.Text.Letter

/-!
# Numbers read from text

The two readers that fields of files and configuration values go through: one for
doubles, one for 64-bit integers. Neither skips blanks, and each says what was wrong
with a text it refuses. The parts of a decimal literal are a type of their own,
because strategy text, whose literals have a more generous grammar, ends in the same
parts.
-/

namespace TradeSignals

/-- The natural number that a list of decimal digits stands for. -/
def digitsValue (digits : List Char) : Nat :=
  digits.foldl (fun n d => 10 * n + (d.toNat - '0'.toNat)) 0

/-- The parts of a decimal literal. -/
structure Numeral where
  /-- Whether a minus sign leads. -/
  negative : Bool
  /-- The digits before the point. -/
  whole : List Char
  /-- The digits after the point. -/
  fraction : List Char
  /-- The power of ten after the digits. -/
  exponent : Int

/-- The double nearest to a literal. -/
def Numeral.toFloat (n : Numeral) : Float :=
  let size := Decimal.toFloat ⟨digitsValue (n.whole ++ n.fraction), n.exponent - n.fraction.length⟩
  if n.negative then -size else size

/-! ### Doubles -/

/-- Why a text is not a double. -/
inductive FloatFault where
  /-- There is nothing to read. -/
  | empty
  /-- The text is not a number. -/
  | invalid
deriving DecidableEq

/-- What is said about a text that is not a double. -/
def FloatFault.message : FloatFault → String
  | .empty => "cannot parse float from empty string"
  | .invalid => "invalid float literal"

/-- The names of the numbers that have no digits, in lower case. -/
def namedFloat? (word : List Char) : Option Float :=
  match String.ofList (word.map Char.toLower) with
  | "nan" => some (0 / 0)
  | "inf" => some (1 / 0)
  | "infinity" => some (1 / 0)
  | _ => none

/-- A leading sign and what follows it; the flag says whether it is a minus. -/
def splitSign : List Char → Bool × List Char
  | '-' :: rest => (true, rest)
  | '+' :: rest => (false, rest)
  | s => (false, s)

/-- The power of ten at the end of a literal: nothing, or an `e` followed by a signed
run of digits up to the end. -/
def readExponent? : List Char → Option Int
  | [] => some 0
  | c :: rest =>
    if c = 'e' ∨ c = 'E' then
      let (negative, digits) := splitSign rest
      if digits ≠ [] ∧ digits.all Char.isDigit then
        some (if negative then -(digitsValue digits : Int) else digitsValue digits)
      else none
    else none

/-- The parts of a literal without its sign. -/
def readNumeral? (negative : Bool) (s : List Char) : Option Numeral :=
  let whole := s.takeWhile Char.isDigit
  let afterWhole := s.dropWhile Char.isDigit
  let tail := match afterWhole with
    | '.' :: rest => rest
    | _ => []
  let fraction := tail.takeWhile Char.isDigit
  let last := match afterWhole with
    | '.' :: rest => rest.dropWhile Char.isDigit
    | rest => rest
  if whole = [] ∧ fraction = [] then none
  else (readExponent? last).map fun exponent => ⟨negative, whole, fraction, exponent⟩

/-- **Reads a double:** an optional sign, then a decimal literal with at least one
digit, or one of the names of infinity and of the missing number in any case. -/
def readFloat (s : String) : Except FloatFault Float :=
  match s.toList with
  | [] => .error .empty
  | chars =>
    let (negative, rest) := splitSign chars
    match namedFloat? rest with
    | some x => .ok (if negative then -x else x)
    | none =>
      match readNumeral? negative rest with
      | some numeral => .ok numeral.toFloat
      | none => .error .invalid

/-! ### Integers -/

/-- Why a text is not a 64-bit integer. -/
inductive IntFault where
  /-- There is nothing to read. -/
  | empty
  /-- A character is not a digit. -/
  | invalid
  /-- The number is above the greatest 64-bit integer. -/
  | tooLarge
  /-- The number is below the least 64-bit integer. -/
  | tooSmall
deriving DecidableEq

/-- What is said about a text that is not a 64-bit integer. -/
def IntFault.message : IntFault → String
  | .empty => "cannot parse integer from empty string"
  | .invalid => "invalid digit found in string"
  | .tooLarge => "number too large to fit in target type"
  | .tooSmall => "number too small to fit in target type"

/-- A signed natural number as a 64-bit integer, if it is in range. The range has one
more negative number than positive ones. -/
def int64? (negative : Bool) (size : Nat) : Option Int64 :=
  if negative then
    if size ≤ Nat.pow 2 63 then some (Int64.ofInt (-size)) else none
  else if size < Nat.pow 2 63 then some (Int64.ofInt size) else none

/-- **Reads a 64-bit integer:** an optional sign and a run of digits. Digits are taken
from the left, so a run that leaves the range is reported before a character after it
that is no digit. -/
def readInt64 (s : String) : Except IntFault Int64 :=
  match s.toList with
  | [] => .error .empty
  | chars =>
    let (negative, rest) := splitSign chars
    let digits := rest.takeWhile Char.isDigit
    match int64? negative (digitsValue digits) with
    | none => .error (if negative then .tooSmall else .tooLarge)
    | some n => if digits = [] ∨ digits ≠ rest then .error .invalid else .ok n

end TradeSignals
