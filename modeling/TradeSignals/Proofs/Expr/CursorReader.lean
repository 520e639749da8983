import TradeSignals.Proofs.Expr.Cursor

/-!
# The reader as a cursor

The grammar of strategy text, read by a cursor: each part looks at the next character, or at the
next two, and moves on by the characters that it takes. A word is a piece of the text, from
where it begins to where the cursor stands after it; a keyword that turns out to be none is
undone by going back to where it began; and an error is reported where the cursor stands, or
where the number, the text or the argument that it is about begins.

Numbers and texts are collected character by character, and a call has one argument more after
each round of its loop.
-/

namespace TradeSignals

namespace Cursor

/-- What was gathered of a number so far. -/
structure Gathered where
  /-- The digits and the point, without underscores. -/
  kept : List Char
  /-- How many digits there are. -/
  digits : ℕ
  /-- Whether there is a point. -/
  point : Bool

section Readers

variable (source : List Char)

/-! ### Words -/

/-- Passes over blanks. -/
def skipBlanks : Cursor Unit := do
  let _ ← passWhile source Text.isBlank

/-- An identifier, after blanks: a piece of the text. -/
def word : Cursor String := do
  skipBlanks source
  let start ← position
  match ← peek source with
  | none => fault source (.expectedIdentifier none)
  | some c =>
    if Text.beginsWord c then
      let _ ← advance source
      let _ ← passWhile source Text.continuesWord
      return String.ofList (← slice source start (← position))
    else fault source (.expectedIdentifier (some c))

/-- A point and the word after it. -/
def oneWord (words : List String) : Cursor (List String ⊕ List String) := do
  skipBlanks source
  if (← peek source) = some '.' then
    let _ ← advance source
    return .inl (words ++ [← word source])
  else return .inr words

/-- The words of a dotted name. -/
def dotted : Cursor (List String) := do
  loop source (oneWord source) [← word source]

/-- A word before an equals sign, unless the sign is doubled. Otherwise the cursor goes back to
where it was. -/
def tryKeyword : Cursor (Option String) := do
  let saved ← position
  match ← peek source with
  | none => return none
  | some c =>
    if Text.beginsWord c then
      let key ← word source
      skipBlanks source
      if (← peek source) = some '=' ∧ (← peekSecond source) ≠ some '=' then
        let _ ← advance source
        return some key
      else
        moveTo source saved
        return none
    else return none

/-! ### Numbers -/

/-- A sign, if there is one. -/
def sign : Cursor (Option Char) := do
  match ← peek source with
  | none => return none
  | some c =>
    if c = '-' ∨ c = '+' then advance source else return none

/-- The sign of a number, which blanks may follow. -/
def signWithBlanks : Cursor (Option Char) := do
  match ← sign source with
  | none => return none
  | some c =>
    skipBlanks source
    return some c

/-- A digit, a point or an underscore of a number. -/
def oneDigit (g : Gathered) : Cursor (Gathered ⊕ Gathered) := do
  match ← peek source with
  | none => return .inr g
  | some c =>
    if c.isDigit then
      let _ ← advance source
      return .inl ⟨g.kept ++ [c], g.digits + 1, g.point⟩
    else if c = '_' ∧ 0 < g.digits then
      let _ ← advance source
      return .inl g
    else if c = '.' ∧ !g.point then
      let _ ← advance source
      return .inl ⟨g.kept ++ [c], g.digits, true⟩
    else return .inr g

/-- The power of ten of a number. -/
def exponent : Cursor (Option Int) := do
  match ← peek source with
  | none => return none
  | some c =>
    if c = 'e' ∨ c = 'E' then
      let _ ← advance source
      let sign ← sign source
      let digits ← passWhile source Char.isDigit
      if digits = [] then fault source .expectedExponent
      else
        let size : Int := digitsValue digits
        return some (if sign = some '-' then -size else size)
    else return none

/-- A number. -/
def number : Cursor Expr := do
  let start ← position
  let sign ← signWithBlanks source
  let g ← loop source (oneDigit source) ⟨[], 0, false⟩
  if g.digits = 0 then faultAt source start .expectedNumber
  else
    let power ← exponent source
    let found ← peek source
    if (found.map Text.continuesWord).getD false then fault source (.badNumber found)
    else
      let negative := sign == some '-'
      match Parser.numberValue? negative g.kept power with
      | some value => return .literal value
      | none =>
        faultAt source start
          (.integerRange (String.ofList (if negative then '-' :: g.kept else g.kept)))

/-! ### Quoted texts -/

/-- A character of a quoted text, or the quote that closes it. -/
def oneQuoted (start : ℕ) (delimiter : Char) (passed : List Char) :
    Cursor (List Char ⊕ List Char) := do
  match ← advance source with
  | none => faultAt source start .unterminated
  | some c =>
    if c = '\x5c' then
      match ← advance source with
      | none => faultAt source start .unterminated
      | some sign =>
        match Quote.unescape? sign with
        | none => fault source (.badEscape sign)
        | some d => return .inl (passed ++ [d])
    else if c = delimiter then return .inr passed
    else if c = '\n' then faultAt source start .lineBreak
    else return .inl (passed ++ [c])

/-- A quoted text. -/
def quoted : Cursor Expr := do
  let start ← position
  match ← advance source with
  | none => stuck
  | some c =>
    if c = '\x27' ∨ c = '\x22' then
      return .quoted (String.ofList (← loop source (oneQuoted source start c) []))
    else stuck

/-! ### Values -/

/-- A dotted name, or a call if a parenthesis follows. -/
def nameOrCall (call : String → Cursor Expr) : Cursor Expr := do
  let words ← dotted source
  skipBlanks source
  if (← peek source) = some '(' then call (".".intercalate words)
  else return Parser.wordsValue words

/-- A value, after blanks. -/
def value (call : String → Cursor Expr) : Cursor Expr := do
  skipBlanks source
  match ← peek source with
  | none => fault source (.expectedExpression none)
  | some c =>
    let pointFirst := c == '.' && ((← peekSecond source).map Char.isDigit).getD false
    if c.isDigit || pointFirst || c == '-' || c == '+' then number source
    else if c == '\x27' || c == '\x22' then quoted source
    else if Text.beginsWord c then nameOrCall source call
    else fault source (.expectedExpression (some c))

/-! ### Calls -/

/-- An argument, given the keys that the call already has. -/
def argument (value : Cursor Expr) (keys : List String) : Cursor (Option String × Expr) := do
  let start ← position
  match ← tryKeyword source with
  | some key =>
    if keys.contains key then faultAt source start (.repeatedKeyword key)
    else return (some key, ← value)
  | none =>
    if keys ≠ [] then faultAt source start .latePositional
    else return (none, ← value)

/-- The positional and the keyword arguments of a call together with one more. -/
def addArgument (state : List Expr × List (String × Expr)) (a : Option String × Expr) :
    List Expr × List (String × Expr) :=
  (a.1.elim (state.1 ++ [a.2]) fun _ => state.1, state.2 ++ (a.1.map (·, a.2)).toList)

/-- What comes after an argument: a comma, or the parenthesis that closes the call. -/
def separator (callee : String) (state : List Expr × List (String × Expr)) :
    Cursor ((List Expr × List (String × Expr)) ⊕ Expr) := do
  skipBlanks source
  match ← peek source with
  | some ',' =>
    let _ ← advance source
    return .inl state
  | some ')' =>
    let _ ← advance source
    return .inr (.call callee state.1 state.2)
  | found => fault source (.expectedSeparator found)

/-- An argument and what comes after it, or the parenthesis that closes the call, given the
arguments that the call already has. -/
def oneArgument (value : Cursor Expr) (callee : String)
    (state : List Expr × List (String × Expr)) :
    Cursor ((List Expr × List (String × Expr)) ⊕ Expr) := do
  skipBlanks source
  if (← peek source) = some ')' then
    let _ ← advance source
    return .inr (.call callee state.1 state.2)
  else
    let a ← argument source value (state.2.map (·.1))
    separator source callee (addArgument state a)

/-- The arguments of a call from its opening parenthesis on. -/
def call (value : Cursor Expr) (callee : String) : Cursor Expr := do
  skipBlanks source
  if (← peek source) = some '(' then
    let _ ← advance source
    loop source (oneArgument source value callee) ([], [])
  else stuck

/-- A value with calls inside each other to the given depth. -/
def expr (limit : ℕ) : ℕ → Cursor Expr
  | 0 => value source fun _ => fault source (.tooDeep limit)
  | depth + 1 => value source (call source (expr limit depth))

/-- An expression, if the text ends here. -/
def ending (e : Expr) : Cursor Expr := do
  if (← position) < Text.byteLength source then
    fault source (.trailing (String.ofList (← remaining source)))
  else return e

/-- A value and blanks up to the end of the text. -/
def whole : Cursor Expr := do
  let e ← expr source Expr.depthLimit Expr.depthLimit
  skipBlanks source
  ending source e

/-- **What reading a text with a cursor comes to**, if it comes to anything. -/
def parse : Option (Except ParseError Expr) :=
  ((whole source).run' 0).run

end Readers

end Cursor

end TradeSignals
