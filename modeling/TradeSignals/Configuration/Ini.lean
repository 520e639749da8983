import TradeSignals.Dictionary
import TradeSignals.Failure
import TradeSignals.Text.Blank
import TradeSignals.Text.LowerCase

/-!
# Configuration text

Keys with values on lines of their own, under the names of sections in brackets. A
semicolon or a number sign begins a comment, which goes on to the end of the line. The
first equals sign or colon of a line divides key and value; a key alone has no value.
Names of sections and keys are the same in capitals and in small letters, and what comes
before the first section belongs to one named `default`.

This is the form that version 3 of the `configparser` library documents for an `Ini`
with its ordinary settings: its two comment signs, its two dividers, its section for what
comes first, and names that are kept in small letters.
-/

namespace TradeSignals

/-- Sections with keys, some of which have a value. -/
structure Ini where
  /-- The sections. -/
  sections : Dictionary (Dictionary (Option String))

namespace Ini

/-- A configuration that says nothing. -/
def empty : Ini := ⟨.empty⟩

/-- The section of what comes before the first name of a section. -/
def unnamed : String := "default"

/-- The name of a section or a key, in small letters. -/
def folded (name : String) : String := Text.lower name

/-- The value of a key in a section. -/
def get? (ini : Ini) (heading key : String) : Option String :=
  ((ini.sections.get? (folded heading)).bind (·.get? (folded key))).join

/-- The number that a key stands for; another one if it stands for none. -/
def number (ini : Ini) (heading key : String) (default : Float) : Float :=
  match (ini.get? heading key).map readFloat with
  | some (.ok x) => x
  | _ => default

/-- A configuration that says one thing more. -/
def put (ini : Ini) (heading key : String) (value : Option String) : Ini :=
  let keys := (ini.sections.get? heading).getD .empty
  ⟨ini.sections.put heading (keys.put key value)⟩

/-! ### Reading -/

/-- Does a character begin a comment? -/
def beginsComment (c : Char) : Bool := c = ';' || c = '#'

/-- Does a character divide a key from its value? -/
def divides (c : Char) : Bool := c = '=' || c = ':'

/-- What stands on a line, its comment and the blanks around it left out. -/
def content (line : List Char) : List Char :=
  Text.trimmed ((Text.trimmed line).takeWhile fun c => !beginsComment c)

/-- A name or a value, the blanks around it left out. -/
def word (s : List Char) : String := String.ofList (Text.trimmed s)

/-- What is before the last closing bracket. -/
def beforeBracket? (s : List Char) : Option (List Char) :=
  match s.reverse.dropWhile fun c => c ≠ ']' with
  | [] => none
  | _ :: rest => some rest.reverse

/-- The lines of a text. A carriage return in front of a line feed is a blank of the
line and does not matter. -/
def lines : List Char → List (List Char)
  | [] => [[]]
  | c :: rest =>
    if c = '\n' then [] :: lines rest
    else match lines rest with
      | first :: more => (c :: first) :: more
      | [] => [[c]]

/-- What one more line says, in the section `heading`: the configuration with it, and
the section from there on. -/
def readLine (number : Nat) (heading : String) (ini : Ini) (line : List Char) :
    Except IniFault (String × Ini) :=
  match content line with
  | [] => .ok (heading, ini)
  | '[' :: rest =>
    match beforeBracket? rest with
    | some name => .ok (folded (word name), ini)
    | none => .error (.openSection number)
  | line =>
    let key := line.takeWhile fun c => !divides c
    if key = [] then .error (.emptyKey number)
    else
      let value := match line.dropWhile fun c => !divides c with
        | [] => none
        | _ :: value => some (word value)
      .ok (heading, ini.put heading (folded (word key)) value)

/-- What the lines from one on say. -/
def readLines (number : Nat) (heading : String) (ini : Ini) :
    List (List Char) → Except IniFault Ini
  | [] => .ok ini
  | line :: rest => do
    let (heading, ini) ← readLine number heading ini line
    readLines (number + 1) heading ini rest

/-- **Reads a configuration.** -/
def read (text : String) : Except IniFault Ini :=
  readLines 1 unnamed empty (lines text.toList)

end Ini

end TradeSignals
