import TradeSignals.Failure
import TradeSignals.Text.Blank

/-!
# Records of fields

Text files with a record on each line and commas between the fields of a record. A
field that begins with a quote goes on to the closing quote, whatever stands between;
a quote inside of it is written twice. A line ends at a line feed, a carriage return,
or both; empty lines are no records. A mark of the byte order in front is passed over.

Every record has to have as many fields as the first one. A record that has not is
reported with the place where the text before it ended.

Both ways this is what version 1 of the `csv` library documents for its reader and its
writer when nothing else is asked of them; `TradeSignals.Csv.Reader.step` goes through
the states of that reader.
-/

namespace TradeSignals.Csv

/-- A record and where it begins. -/
structure Record where
  /-- The fields. -/
  fields : List String
  /-- The line on which the record before it ended. -/
  line : Nat
  /-- How many bytes come before it. -/
  byte : Nat
deriving DecidableEq

/-- Where in a record a reader is. -/
inductive Mode where
  /-- Before a record. -/
  | beforeRecord
  /-- Behind a carriage return, which a line feed may follow. -/
  | behindReturn
  /-- Before a field. -/
  | beforeField
  /-- In a field that is not quoted. -/
  | inField
  /-- In a quoted field. -/
  | inQuotes
  /-- Behind a quote in a quoted field. -/
  | behindQuote
deriving DecidableEq

/-- A reader of records. What it has read of the record is kept in reverse. -/
structure Reader where
  /-- Where in a record it is. -/
  mode : Mode
  /-- The field it is in. -/
  field : List Char
  /-- The fields before that. -/
  fields : List String
  /-- The line it is on. -/
  line : Nat
  /-- How many bytes it has read. -/
  byte : Nat
  /-- The line on which the record before ended. -/
  startLine : Nat
  /-- How many bytes it had read by then. -/
  startByte : Nat

namespace Reader

/-- A reader that has passed over so many bytes. -/
def start (byte : Nat) : Reader := ⟨.beforeRecord, [], [], 1, byte, 1, 0⟩

/-- A character is read. -/
def advance (r : Reader) (c : Char) : Reader :=
  { r with byte := r.byte + c.utf8Size, line := if c = '\n' then r.line + 1 else r.line }

/-- A character goes into the field. -/
def take (r : Reader) (c : Char) (mode : Mode) : Reader :=
  { r with field := c :: r.field, mode := mode }

/-- The field ends. -/
def endField (r : Reader) : Reader :=
  { r with field := [], fields := String.ofList r.field.reverse :: r.fields, mode := .beforeField }

/-- The record that ends here. -/
def record (r : Reader) : Record := ⟨r.endField.fields.reverse, r.startLine, r.startByte⟩

/-- The record ends with a character that has been read. -/
def endRecord (r : Reader) (c : Char) : Reader :=
  { r with
    mode := if c = '\r' then .behindReturn else .beforeRecord
    field := []
    fields := []
    startLine := r.line
    startByte := r.byte }

/-- Does a character end a line? -/
def endsLine (c : Char) : Bool := c = '\r' || c = '\n'

/-- A character in or before a field that is not quoted, or behind the closing quote. -/
def plain (r : Reader) (c : Char) : Reader × Option Record :=
  if c = ',' then (r.endField, none)
  else if endsLine c then (r.endRecord c, some r.record)
  else (r.take c .inField, none)

/-- A character at the beginning of a field. -/
def opening (r : Reader) (c : Char) : Reader × Option Record :=
  if c = '\x22' then ({ r with mode := .inQuotes }, none) else r.plain c

/-- **Reads a character**, which may end a record. -/
def step (r : Reader) (c : Char) : Reader × Option Record :=
  let r := r.advance c
  match r.mode with
  | .beforeRecord => if endsLine c then (r, none) else r.opening c
  | .behindReturn =>
    if endsLine c then ({ r with mode := .beforeRecord }, none) else r.opening c
  | .beforeField => r.opening c
  | .inField => r.plain c
  | .inQuotes =>
    if c = '\x22' then ({ r with mode := .behindQuote }, none) else (r.take c .inQuotes, none)
  | .behindQuote => if c = '\x22' then (r.take c .inQuotes, none) else r.plain c

/-- The record that the end of the text ends. -/
def finish (r : Reader) : Option Record :=
  match r.mode with
  | .beforeRecord | .behindReturn => none
  | _ => some r.record

/-- The records of the rest of a text. -/
def records (r : Reader) : List Char → List Record
  | [] => r.finish.toList
  | c :: rest =>
    let (r, record) := r.step c
    record.toList ++ r.records rest

end Reader

/-- **The records of a text.** -/
def records (text : String) : List Record :=
  match text.toList with
  | '\ufeff' :: rest => (Reader.start 3).records rest
  | chars => (Reader.start 0).records chars

/-- The fields of a record that is to have as many as the first one; `index` counts the
records before it. -/
def checked (expected index : Nat) (r : Record) : Except UnequalRecord (List String) :=
  if r.fields.length = expected then .ok r.fields
  else .error ⟨index, r.line, r.byte, r.fields.length, expected⟩

/-- **The rows of a text:** the fields of all records but the first, which names them. -/
def rows (text : String) : List (Except UnequalRecord (List String)) :=
  match records text with
  | [] => []
  | heading :: rest =>
    rest.mapIdx fun index r => checked heading.fields.length (index + 1) r

/-! ### Writing -/

/-- Has a field to be quoted? -/
def needsQuotes (field : String) : Bool :=
  field.toList.any fun c => c = ',' || c = '\x22' || Reader.endsLine c

/-- A field as it is written: in quotes if it has to be, and then with each quote
twice. -/
def fieldText (field : String) : String :=
  if needsQuotes field then
    String.ofList ('\x22' ::
      (field.toList.flatMap (fun c => if c = '\x22' then [c, c] else [c]) ++ ['\x22']))
  else field

/-- A record on a line of its own. -/
def line (fields : List String) : String := ",".intercalate (fields.map fieldText) ++ "\n"

end TradeSignals.Csv
