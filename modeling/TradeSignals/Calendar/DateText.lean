import TradeSignals.Calendar.Date
import TradeSignals.Decimal.Reading

/-!
# The text of a date

Dates are written as year, month and day with dashes between them, the month and the
day with two digits, the year with four. A year with another number of digits, or
before year zero, shows its sign. The reader accepts more than the writer writes:
each of the three numbers may have blanks before it, a year may have a sign and then
any number of digits, and a month or a day may have one digit.

The two follow what version 0.4 of the `chrono` library documents of its dates: how a date
is shown, and how it is read by the format `%Y-%m-%d`. The four ways in which a text can
fail to be a date, and the order in which they are looked for, are those of that library.
-/

namespace TradeSignals

/-- Why a text is not a date. -/
inductive DateFault where
  /-- The text ends before the date does. -/
  | premature
  /-- A character does not belong there. -/
  | invalid
  /-- There is no such day. -/
  | outOfRange
  /-- Something follows the date. -/
  | trailing
deriving DecidableEq

/-- What is said about a text that is not a date. -/
def DateFault.message : DateFault → String
  | .premature => "premature end of input"
  | .invalid => "input contains invalid characters"
  | .outOfRange => "input is out of range"
  | .trailing => "trailing input"

namespace Date

/-! ### Writing -/

/-- The digits of a number, with zeros in front up to a width. -/
def padded (width n : Nat) : List Char :=
  let digits := Nat.toDigits 10 n
  List.replicate (width - digits.length) '0' ++ digits

/-- The digits of a year, signed unless it lies between year zero and year 9999. -/
def yearText (year : Int) : List Char :=
  if 0 ≤ year ∧ year ≤ 9999 then padded 4 year.toNat
  else (if year < 0 then '-' else '+') :: padded 4 year.natAbs

/-- The characters of a date. -/
def chars (d : Date) : List Char :=
  yearText d.year ++ '-' :: (padded 2 d.month ++ '-' :: padded 2 d.day)

/-- **The text of a date.** -/
def text (d : Date) : String :=
  String.ofList d.chars

/-! ### Reading -/

/-- A run of digits, not more than `width` of them if there is a limit, and at least
one. -/
def readDigits (width : Option Nat) (s : List Char) : Except DateFault (Nat × List Char) :=
  let window := match width with
    | some w => s.take w
    | none => s
  let digits := window.takeWhile Char.isDigit
  if s = [] then .error .premature
  else if digits = [] then .error .invalid
  else .ok (digitsValue digits, s.drop digits.length)

/-- A year: four digits at most, or a sign and any number of digits. A year of more
than 32 bits is refused on the spot. -/
def readYear (s : List Char) : Except DateFault (Int × List Char) :=
  let s := Text.skipBlanks s
  let (negative, digits) := splitSign s
  match readDigits (if digits = s then some 4 else none) digits with
  | .ok (n, rest) =>
    let year : Int := if negative then -n else n
    if -(Nat.pow 2 31) ≤ year ∧ year < Nat.pow 2 31 then .ok (year, rest) else .error .outOfRange
  | .error fault => .error fault

/-- A month or a day: one or two digits with a value from one to `greatest`. -/
def readPart (greatest : Nat) (s : List Char) : Except DateFault (Nat × List Char) :=
  match readDigits (some 2) (Text.skipBlanks s) with
  | .ok (n, rest) => if 1 ≤ n ∧ n ≤ greatest then .ok (n, rest) else .error .outOfRange
  | .error fault => .error fault

/-- A dash. -/
def readDash : List Char → Except DateFault (List Char)
  | [] => .error .premature
  | c :: rest => if c = '-' then .ok rest else .error .invalid

/-- **Reads a date:** year, month and day with dashes between them and nothing after
them. -/
def read (s : String) : Except DateFault Date := do
  let (year, rest) ← readYear s.toList
  let (month, rest) ← readPart 12 (← readDash rest)
  let (day, rest) ← readPart 31 (← readDash rest)
  if rest ≠ [] then throw .trailing
  match of? year month day with
  | some date => pure date
  | none => throw .outOfRange

example : (read "2024-1-5").map text = .ok "2024-01-05" := rfl
example : (read "-1-12-31").map text = .ok "-0001-12-31" := rfl
example : (read "+12000-01-01").map text = .ok "+12000-01-01" := rfl
example : (read "2024-13").map text = .error .outOfRange := rfl
example : (read "2024-02-30").map text = .error .outOfRange := rfl
example : (read "2024-01-15x").map text = .error .trailing := rfl
example : (read "20245-01-15").map text = .error .invalid := rfl

end Date

end TradeSignals
