import TradeSignals.Validation.Outcome

/-!
# Reports

The outcome of a validation as JSON, on one line or indented. The report has three
members, in this order: whether there is a strategy, its canonical text, and the
changes as an object with one member for each.

The two layouts and the characters that are escaped are those that version 1 of the
`serde_json` library documents for its plain and its indented output.
-/

namespace TradeSignals.Report

/-- A digit of base sixteen. -/
def hexDigit (n : Nat) : Char := n.digitChar

/-- A character inside a JSON string: quotes, backslashes and control characters are
escaped, and nothing else. -/
def escape (c : Char) : List Char :=
  match c with
  | '\x22' => ['\x5c', '\x22']
  | '\x5c' => ['\x5c', '\x5c']
  | '\n' => ['\x5c', 'n']
  | '\r' => ['\x5c', 'r']
  | '\t' => ['\x5c', 't']
  | '\x08' => ['\x5c', 'b']
  | '\x0c' => ['\x5c', 'f']
  | c =>
    if c.toNat < 0x20 then
      ['\x5c', 'u', '0', '0', hexDigit (c.toNat / 16), hexDigit (c.toNat % 16)]
    else [c]

/-- A text as a JSON string. -/
def quoted (text : String) : String :=
  String.ofList ('\x22' :: (text.toList.flatMap escape ++ ['\x22']))

/-- How a report is laid out. -/
inductive Layout where
  /-- On one line. -/
  | compact
  /-- Members on lines of their own, two more spaces for each level. -/
  | indented
deriving DecidableEq

/-- A JSON object at a level, of members that are JSON texts. -/
def object (layout : Layout) (level : Nat) (members : List (String × String)) : String :=
  match layout with
  | .compact =>
    "\x7b" ++ ",".intercalate (members.map fun m => quoted m.1 ++ ":" ++ m.2) ++ "\x7d"
  | .indented =>
    if members.isEmpty then "\x7b\x7d"
    else
      let lineBreak (level : Nat) := "\n" ++ String.ofList (List.replicate (2 * level) ' ')
      "\x7b" ++ lineBreak (level + 1) ++
        ("," ++ lineBreak (level + 1)).intercalate
          (members.map fun m => quoted m.1 ++ ": " ++ m.2) ++
        lineBreak level ++ "\x7d"

/-- The changes of a validation as an object. -/
def ofChangelog (layout : Layout) (level : Nat) (log : Changelog) : String :=
  object layout level (log.entries.map fun c => (c.1, quoted c.2))

/-- **The report** on an outcome. -/
def ofOutcome (layout : Layout) (o : Outcome) : String :=
  object layout 0
    [("ok", if o.ok then "true" else "false"), ("sanitized", quoted o.sanitized),
      ("changes", ofChangelog layout 1 o.changes)]

end TradeSignals.Report
