import TradeSignals.Decimal.Reading
import TradeSignals.Expr.Basic
import TradeSignals.Expr.ParseError
import TradeSignals.Expr.Quote

/-!
# Reading expressions

The grammar, with any blanks between the parts:

* a value is a number, a quoted text, or a dotted name;
* a dotted name followed by a parenthesis is a call, two or more words without one
  are a member of an enumeration, and a single word is a truth value, the absent
  value or a bare name;
* the arguments of a call are values with commas between them and an optional comma
  after the last, where a word and an equals sign before a value make it a keyword
  argument, no key is given twice, and no positional argument follows a keyword.

A reader takes the unread text and gives what it read with the text after it, or
halts at a fault. Calls may lie inside each other to a fixed depth; the reader for a
depth is built from the reader for the depth below it, and the loop over the
arguments of a call ends because reading a value always consumes something, which
every reader carries as a proof.
-/

namespace TradeSignals

namespace Parser

/-- The outcome of reading a part of the text. -/
abbrev Step (α : Type) := Except Halt (α × List Char)

/-! ### Words -/

/-- An identifier, after blanks. -/
def word (s : List Char) : Step String :=
  match Text.skipBlanks s with
  | [] => .error ⟨[], .expectedIdentifier none⟩
  | c :: rest =>
    if Text.beginsWord c then
      .ok (String.ofList (c :: rest.takeWhile Text.continuesWord),
        rest.dropWhile Text.continuesWord)
    else .error ⟨c :: rest, .expectedIdentifier (some c)⟩

/-- Reading a word consumes something. -/
theorem length_word_lt {s rest : List Char} {w : String} (h : word s = .ok (w, rest)) :
    rest.length < s.length := by
  unfold word at h
  have hs := Text.length_skipBlanks_le s
  split at h
  · cases h
  · next c t ht =>
    split at h
    · cases h
      have := (List.dropWhile_suffix Text.continuesWord (l := t)).length_le
      rw [ht] at hs
      simp only [List.length_cons] at hs
      omega
    · cases h

/-- The words of a dotted name; the text after it has no blanks in front. -/
def dotted (s : List Char) : Step (List String) :=
  match h : word s with
  | .error halt => .error halt
  | .ok (w, rest) =>
    match hr : Text.skipBlanks rest with
    | '.' :: more =>
      have : more.length < s.length := by
        have h1 := length_word_lt h
        have h2 := Text.length_skipBlanks_le rest
        rw [hr] at h2
        simp only [List.length_cons] at h2
        omega
      match dotted more with
      | .error halt => .error halt
      | .ok (ws, after) => .ok (w :: ws, after)
    | other => .ok ([w], other)
termination_by s.length

/-- Reading a dotted name consumes something. -/
theorem length_dotted_lt {s rest : List Char} {ws : List String}
    (h : dotted s = .ok (ws, rest)) : rest.length < s.length := by
  fun_induction dotted s generalizing ws rest with
  | case1 => cases h
  | case2 => cases h
  | case3 s w r hw more hr _ ws' after hd ih =>
    cases h
    have h1 := length_word_lt hw
    have h2 := Text.length_skipBlanks_le r
    have h3 := ih hd
    rw [hr] at h2
    simp only [List.length_cons] at h2
    omega
  | case4 s w r hw _ =>
    cases h
    have h1 := length_word_lt hw
    have h2 := Text.length_skipBlanks_le r
    omega

/-- A word before an equals sign, unless the sign is doubled: the key of a keyword
argument and the text of its value. -/
def key? (s : List Char) : Option (String × List Char) :=
  match s with
  | [] => none
  | c :: _ =>
    if Text.beginsWord c then
      match word s with
      | .error _ => none
      | .ok (w, rest) =>
        match Text.skipBlanks rest with
        | '=' :: '=' :: _ => none
        | '=' :: after => some (w, after)
        | _ => none
    else none

/-- The text of a keyword's value is shorter than that of the argument. -/
theorem length_key?_lt {s rest : List Char} {k : String} (h : key? s = some (k, rest)) :
    rest.length < s.length := by
  unfold key? at h
  split at h
  · cases h
  · split at h
    · split at h
      · cases h
      · next w r hw =>
        have h1 := length_word_lt hw
        have h2 := Text.length_skipBlanks_le r
        split at h
        · cases h
        · next after _ hr =>
          cases h
          rw [hr] at h2
          simp only [List.length_cons] at h2
          omega
        · cases h
    · cases h

/-! ### Numbers -/

/-- The digits of a number and at most one point among them; underscores may stand
anywhere after the first digit and mean nothing. -/
def mantissa (seenDigit seenPoint : Bool) : List Char → List Char × List Char
  | [] => ([], [])
  | c :: rest =>
    if c.isDigit then
      let (kept, after) := mantissa true seenPoint rest
      (c :: kept, after)
    else if c = '_' ∧ seenDigit then mantissa seenDigit seenPoint rest
    else if c = '.' ∧ !seenPoint then
      let (kept, after) := mantissa seenDigit true rest
      (c :: kept, after)
    else ([], c :: rest)

/-- What follows the digits of a number is not longer than the text. -/
theorem length_mantissa_le (seenDigit seenPoint : Bool) (s : List Char) :
    (mantissa seenDigit seenPoint s).2.length ≤ s.length := by
  fun_induction mantissa seenDigit seenPoint s <;> simp_all <;> omega

/-- A number whose digits are kept consumes something. -/
theorem length_mantissa_lt {seenDigit seenPoint : Bool} {s : List Char}
    (h : (mantissa seenDigit seenPoint s).1 ≠ []) :
    (mantissa seenDigit seenPoint s).2.length < s.length := by
  fun_induction mantissa seenDigit seenPoint s with
  | case1 => simp at h
  | case2 _ seenPoint _ rest _ kept after hm =>
    have := length_mantissa_le true seenPoint rest
    simp only [hm, List.length_cons] at this ⊢
    omega
  | case3 seenDigit seenPoint _ rest _ _ ih =>
    have := ih h
    simp only [List.length_cons]
    omega
  | case4 seenDigit _ _ rest _ _ _ kept after hm =>
    have := length_mantissa_le seenDigit true rest
    simp only [hm, List.length_cons] at this ⊢
    omega
  | case5 => simp at h

/-- The power of ten of a number: absent, or an `e` and a signed run of digits. -/
def exponent (s : List Char) : Step (Option Int) :=
  match s with
  | c :: rest =>
    if c = 'e' ∨ c = 'E' then
      let (negative, signless) := splitSign rest
      let digits := signless.takeWhile Char.isDigit
      let after := signless.dropWhile Char.isDigit
      if digits = [] then .error ⟨after, .expectedExponent⟩
      else
        let size : Int := digitsValue digits
        .ok (some (if negative then -size else size), after)
    else .ok (none, s)
  | [] => .ok (none, [])

/-- What follows the power of ten is not longer than the text. -/
theorem length_exponent_le {s rest : List Char} {power : Option Int}
    (h : exponent s = .ok (power, rest)) : rest.length ≤ s.length := by
  unfold exponent at h
  split at h
  · next c t =>
    split at h
    · have h1 : (splitSign t).2.length ≤ t.length := by
        unfold splitSign
        split <;> simp
      have h2 := (List.dropWhile_suffix Char.isDigit (l := (splitSign t).2)).length_le
      simp only at h
      split at h
      · cases h
      · cases h
        simp only [List.length_cons]
        omega
    · cases h; simp
  · cases h; simp

/-- The value of a number from its sign, its kept digits and point, and its power of
ten. Without a point and a power it is an integer, and must fit into 64 bits. -/
def numberValue? (negative : Bool) (kept : List Char) (power : Option Int) : Option Literal :=
  if power.isNone ∧ !kept.contains '.' then
    (int64? negative (digitsValue kept)).map .int
  else
    some (.float (Numeral.toFloat
      { negative := negative
        whole := kept.takeWhile (· ≠ '.')
        fraction := (kept.dropWhile (· ≠ '.')).drop 1
        exponent := power.getD 0 }))

/-- A number: an optional sign that blanks may follow, digits and a point, and an
optional power of ten. Nothing that continues a word may come right after it. -/
def number (s : List Char) : Step Expr :=
  let (negative, signless) := splitSign s
  let (kept, rest) := mantissa false false (Text.skipBlanks signless)
  if !kept.any Char.isDigit then .error ⟨s, .expectedNumber⟩
  else
    match exponent rest with
    | .error halt => .error halt
    | .ok (power, after) =>
      if (after.head?.map Text.continuesWord).getD false then
        .error ⟨after, .badNumber after.head?⟩
      else
        match numberValue? negative kept power with
        | some value => .ok (.literal value, after)
        | none =>
          .error ⟨s, .integerRange (String.ofList (if negative then '-' :: kept else kept))⟩

/-! ### Quoted texts -/

/-- The rest of a quoted text after its opening quote. Faults that concern the whole
text are pinned to where it starts. -/
def quotedRest (start : List Char) (delimiter : Char) : List Char → Step (List Char)
  | [] => .error ⟨start, .unterminated⟩
  | c :: rest =>
    if c = '\x5c' then
      match rest with
      | [] => .error ⟨start, .unterminated⟩
      | sign :: rest =>
        match Quote.unescape? sign with
        | none => .error ⟨rest, .badEscape sign⟩
        | some d =>
          match quotedRest start delimiter rest with
          | .error halt => .error halt
          | .ok (ds, after) => .ok (d :: ds, after)
    else if c = delimiter then .ok ([], rest)
    else if c = '\n' then .error ⟨start, .lineBreak⟩
    else
      match quotedRest start delimiter rest with
      | .error halt => .error halt
      | .ok (ds, after) => .ok (c :: ds, after)

/-- What follows a quoted text is shorter than the text after its opening quote. -/
theorem length_quotedRest_lt {start s rest : List Char} {delimiter : Char} {cs : List Char}
    (h : quotedRest start delimiter s = .ok (cs, rest)) : rest.length < s.length := by
  fun_induction quotedRest start delimiter s generalizing cs rest with
  | case1 => cases h
  | case2 => cases h
  | case3 => cases h
  | case4 => cases h
  | case5 _ _ _ _ _ _ hd ih =>
    cases h
    have := ih hd
    simp only [List.length_cons]
    omega
  | case6 => cases h; simp
  | case7 => cases h
  | case8 => cases h
  | case9 _ _ _ _ _ _ _ hd ih =>
    cases h
    have := ih hd
    simp only [List.length_cons]
    omega

/-! ### Values -/

/-- The value of the words of a dotted name that is not called. -/
def wordsValue : List String → Expr
  | ["True"] => .literal (.bool true)
  | ["False"] => .literal (.bool false)
  | ["None"] => .literal .none
  | [w] => .name w
  | ws => .member (".".intercalate ws.dropLast) (ws.getLast?.getD "")

/-- A way to read calls: it gets the name of the call and the text from the opening
parenthesis on. -/
abbrev CallReader := String → List Char → Step Expr

/-- A dotted name, or a call if a parenthesis follows. -/
def nameOrCall (call : CallReader) (s : List Char) : Step Expr :=
  match dotted s with
  | .error halt => .error halt
  | .ok (ws, rest) =>
    if rest.head? = some '(' then call (".".intercalate ws) rest else .ok (wordsValue ws, rest)

/-- A value, after blanks; its first characters say what it is. -/
def value (call : CallReader) (s : List Char) : Step Expr :=
  match Text.skipBlanks s with
  | [] => .error ⟨[], .expectedExpression none⟩
  | c :: rest =>
    let pointFirst := c == '.' && (rest.head?.map Char.isDigit).getD false
    if c.isDigit || pointFirst || c == '-' || c == '+' then number (c :: rest)
    else if c == '\x27' || c == '\x22' then
      match quotedRest (c :: rest) c rest with
      | .error halt => .error halt
      | .ok (cs, after) => .ok (.quoted (String.ofList cs), after)
    else if Text.beginsWord c then nameOrCall call (c :: rest)
    else .error ⟨c :: rest, .expectedExpression (some c)⟩

/-- A way to read values that always consumes something. -/
structure Reader where
  /-- Reads a value. -/
  run : List Char → Step Expr
  /-- What follows a value is shorter than the text. -/
  shorter : ∀ {s rest : List Char} {e : Expr}, run s = .ok (e, rest) → rest.length < s.length

/-! ### Calls -/

/-- An argument, given the keys that the call already has: a value with its key, or a
value without one. -/
def argument (value : Reader) (keys : List String) (s : List Char) :
    Step (Option String × Expr) :=
  match key? s with
  | some (key, valueText) =>
    if keys.contains key then .error ⟨s, .repeatedKeyword key⟩
    else match value.run valueText with
      | .error halt => .error halt
      | .ok (e, rest) => .ok ((some key, e), rest)
  | none =>
    if keys ≠ [] then .error ⟨s, .latePositional⟩
    else match value.run s with
      | .error halt => .error halt
      | .ok (e, rest) => .ok ((none, e), rest)

/-- Reading an argument consumes something. -/
theorem length_argument_lt {value : Reader} {keys : List String} {s rest : List Char}
    {a : Option String × Expr} (h : argument value keys s = .ok (a, rest)) :
    rest.length < s.length := by
  unfold argument at h
  split at h
  · next hk =>
    have := length_key?_lt hk
    split at h
    · cases h
    · split at h
      · cases h
      · next hv =>
        cases h
        have := value.shorter hv
        omega
  · split at h
    · cases h
    · split at h
      · cases h
      · next hv => cases h; exact value.shorter hv

/-- The arguments of a call and its closing parenthesis, added to the arguments read so
far. -/
def arguments (value : Reader) (callee : String) (positional : List Expr)
    (keywords : List (String × Expr)) (s : List Char) : Step Expr :=
  match hs : Text.skipBlanks s with
  | ')' :: rest => .ok (.call callee positional keywords, rest)
  | here =>
    match ha : argument value (keywords.map (·.1)) here with
    | .error halt => .error halt
    | .ok ((key, e), rest) =>
      let positional := key.elim (positional ++ [e]) fun _ => positional
      let keywords := keywords ++ (key.map (·, e)).toList
      match ht : Text.skipBlanks rest with
      | ')' :: after => .ok (.call callee positional keywords, after)
      | ',' :: more =>
        have : more.length < s.length := by
          have h1 := Text.length_skipBlanks_le s
          have h2 := length_argument_lt ha
          have h3 := Text.length_skipBlanks_le rest
          rw [hs] at h1
          simp only [ht, List.length_cons] at h3
          omega
        arguments value callee positional keywords more
      | other => .error ⟨other, .expectedSeparator other.head?⟩
termination_by s.length

/-- Reading the arguments of a call consumes something. -/
theorem length_arguments_lt {value : Reader} {callee : String} {positional : List Expr}
    {keywords : List (String × Expr)} {s rest : List Char} {e : Expr}
    (h : arguments value callee positional keywords s = .ok (e, rest)) :
    rest.length < s.length := by
  fun_induction arguments value callee positional keywords s generalizing e rest with
  | case1 _ _ s rest hs =>
    cases h
    have := Text.length_skipBlanks_le s
    simp only [hs, List.length_cons] at this
    omega
  | case2 => cases h
  | case3 _ _ s _ _ rest =>
    rename_i ht _ ha
    cases h
    have h1 := Text.length_skipBlanks_le s
    have h2 := length_argument_lt ha
    have h3 := Text.length_skipBlanks_le rest
    simp only [ht, List.length_cons] at h3
    omega
  | case4 =>
    rename_i ih
    have := ih h
    omega
  | case5 => cases h

/-! ### The whole -/

/-- What follows a number is shorter than the text. -/
theorem length_number_lt {s rest : List Char} {e : Expr} (h : number s = .ok (e, rest)) :
    rest.length < s.length := by
  unfold number at h
  generalize hsign : splitSign s = signed at h
  obtain ⟨negative, signless⟩ := signed
  have h1 : signless.length ≤ s.length := by
    unfold splitSign at hsign
    split at hsign <;> cases hsign <;> simp
  have h2 := Text.length_skipBlanks_le signless
  have h3 := @length_mantissa_lt false false (Text.skipBlanks signless)
  simp only at h
  generalize mantissa false false (Text.skipBlanks signless) = read at h h3
  obtain ⟨kept, after⟩ := read
  simp only at h h3
  split at h
  · cases h
  · next hkept =>
    have h4 : after.length < (Text.skipBlanks signless).length :=
      h3 fun hnil => hkept (by simp [hnil])
    split at h
    · cases h
    · next power t hp =>
      have h5 := length_exponent_le hp
      split at h
      · cases h
      · split at h
        · cases h; omega
        · cases h

/-- What follows a value is shorter than the text, if that is so for calls. -/
theorem length_value_lt {call : CallReader}
    (hcall : ∀ {callee s e rest}, call callee s = .ok (e, rest) → rest.length < s.length)
    {s rest : List Char} {e : Expr} (h : value call s = .ok (e, rest)) :
    rest.length < s.length := by
  have hs := Text.length_skipBlanks_le s
  unfold value at h
  split at h
  · cases h
  · next c t ht =>
    rw [ht] at hs
    simp only at h
    split at h
    · have := length_number_lt h
      omega
    · split at h
      · split at h
        · cases h
        · next hq =>
          cases h
          have := length_quotedRest_lt hq
          simp only [List.length_cons] at hs
          omega
      · split at h
        · unfold nameOrCall at h
          split at h
          · cases h
          · next hd =>
            have h1 := length_dotted_lt hd
            split at h
            · have := hcall h
              omega
            · cases h
              omega
        · cases h

/-- The reader of values with calls inside each other to the given depth. -/
def reader (limit : Nat) : (depth : Nat) → Reader
  | 0 =>
    { run := value fun _ s => .error ⟨s, .tooDeep limit⟩
      shorter := length_value_lt fun h => by cases h }
  | depth + 1 =>
    { run := value fun callee s => arguments (reader limit depth) callee [] [] s.tail
      shorter := length_value_lt fun {_ s _ _} h => by
        have := length_arguments_lt h
        simp only [List.length_tail] at this
        omega }

end Parser

namespace Expr

/-- How deep calls may lie inside each other. -/
def depthLimit : Nat := 64

/-- The expression that a whole text is, or where and why it is none. -/
def parseChars (source : List Char) : Except ParseError Expr :=
  match (Parser.reader depthLimit depthLimit).run source with
  | .error halt => .error (halt.error source)
  | .ok (e, rest) =>
    match Text.skipBlanks rest with
    | [] => .ok e
    | unread => .error (Halt.error source ⟨unread, .trailing (String.ofList unread)⟩)

/-- **Reads an expression** from its text. -/
def parse (source : String) : Except ParseError Expr :=
  parseChars source.toList

end Expr

end TradeSignals
