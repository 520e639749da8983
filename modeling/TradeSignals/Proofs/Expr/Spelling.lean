import TradeSignals.Expr.Parser
import TradeSignals.Expr.Printer
import TradeSignals.Proofs.Expr.Tree

/-!
# Spellings

The canonical text of an expression is one of many that are read as that expression.
Blanks may stand around each of its words, signs and constants, and the arguments of a
call may end with a comma. Here such a text is described in two steps:

* an expression is spelled by a list of tokens, `TradeSignals.Spells`, which leaves open
  only whether the arguments of each call end with a comma;
* a list of tokens is spread over a text, `TradeSignals.Spread`, with any blanks in between.

Not every expression has a spelling that is read back: its names have to be words, no two
keywords of a call may be the same, and its numbers have to be finite
(`TradeSignals.Expr.WellFormed`).
-/

namespace TradeSignals

namespace Text

/-! ### Blanks and words -/

/-- The code points of the blank characters. -/
def blankCodes : List ℕ :=
  List.range' 0x09 5 ++ [0x20, 0x85, 0xA0, 0x1680] ++ List.range' 0x2000 11 ++
    [0x2028, 0x2029, 0x202F, 0x205F, 0x3000]

theorem mem_blankCodes {c : Char} (h : isBlank c = true) : c.toNat ∈ blankCodes := by
  -- The predicate names ranges of code points, and the list has them one by one.
  simp only [isBlank, Bool.or_eq_true, Bool.and_eq_true, decide_eq_true_eq, beq_iff_eq] at h
  simp only [blankCodes, List.mem_append, List.mem_range'_1, List.mem_cons, List.not_mem_nil]
  omega

theorem continuesWord_blankCodes :
    ∀ n ∈ blankCodes, continuesWord (Char.ofNat n) = false := by
  decide +kernel

/-- Blanks end a word. -/
theorem continuesWord_of_isBlank {c : Char} (h : isBlank c = true) : continuesWord c = false := by
  have hc := continuesWord_blankCodes _ (mem_blankCodes h)
  rwa [Char.ofNat_toNat] at hc

theorem isBlank_of_beginsWord {c : Char} (h : beginsWord c = true) : isBlank c = false := by
  cases hb : isBlank c with
  | false => rfl
  | true =>
    have hc := continuesWord_of_isBlank hb
    rw [continuesWord_of_beginsWord h] at hc
    cases hc

theorem beginsWord_digits : ∀ n ∈ List.range' 48 10, beginsWord (Char.ofNat n) = false := by
  decide +kernel

/-- Digits begin no word. -/
theorem beginsWord_of_isDigit {c : Char} (h : c.isDigit = true) : beginsWord c = false := by
  simp only [Char.isDigit, Bool.and_eq_true, decide_eq_true_eq] at h
  have h1 : 48 ≤ c.val.toNat := h.1
  have h2 : c.val.toNat ≤ 57 := h.2
  have h3 : c.toNat = c.val.toNat := rfl
  have hc := beginsWord_digits c.toNat (List.mem_range'_1.2 (by omega))
  rwa [Char.ofNat_toNat] at hc

/-- **A word**: a letter or an underscore, and then letters, numerals and underscores. -/
def isWord (w : String) : Bool :=
  match w.toList with
  | [] => false
  | c :: cs => beginsWord c && cs.all continuesWord

theorem isWord_iff {w : String} : isWord w = true ↔
    ∃ c cs, w.toList = c :: cs ∧ beginsWord c = true ∧ ∀ d ∈ cs, continuesWord d = true := by
  unfold isWord
  split
  · next h => simp [h]
  · next c cs h =>
    rw [Bool.and_eq_true, List.all_eq_true, h]
    constructor
    · exact fun hw => ⟨c, cs, rfl, hw⟩
    · rintro ⟨_, _, heq, hw⟩
      cases heq
      exact hw

end Text

/-! ### Tokens -/

/-- What a text of an expression is made of. -/
inductive Token where
  /-- A word. -/
  | word (text : String)
  /-- A number or a quoted text. -/
  | constant (value : Literal)
  /-- The point inside a dotted name. -/
  | point
  /-- The parenthesis before the arguments of a call. -/
  | opening
  /-- The parenthesis after the arguments of a call. -/
  | closing
  /-- The comma between two arguments. -/
  | comma
  /-- The sign between a keyword and its value. -/
  | equals

namespace Token

/-- The character of a token that is a single sign. -/
def sign? : Token → Option Char
  | .word _ | .constant _ => none
  | .point => some '.'
  | .opening => some '('
  | .closing => some ')'
  | .comma => some ','
  | .equals => some '='

/-- The characters of a token. -/
def chars : Token → List Char
  | .word text => text.toList
  | .constant value => value.chars
  | t => t.sign?.toList

theorem chars_of_sign? {t : Token} {c : Char} (h : t.sign? = some c) : t.chars = [c] := by
  cases t <;> cases h <;> rfl

/-- No sign is blank, and none belongs to a word. -/
theorem plain_of_sign? {t : Token} {c : Char} (h : t.sign? = some c) :
    Text.isBlank c = false ∧ Text.continuesWord c = false := by
  cases t <;> cases h <;> decide

end Token

/-- **A list of tokens is spread over a text**, with blanks around each. -/
inductive Spread : List Token → List Char → Prop where
  /-- After the last token there may be blanks. -/
  | nil {blanks : List Char} (hb : ∀ c ∈ blanks, Text.isBlank c = true) : Spread [] blanks
  /-- Before a token there may be blanks. -/
  | cons {blanks s : List Char} {t : Token} {ts : List Token}
      (hb : ∀ c ∈ blanks, Text.isBlank c = true) (hs : Spread ts s) :
      Spread (t :: ts) (blanks ++ (t.chars ++ s))

namespace Spread

/-- More blanks in front do not matter. -/
theorem append_blanks {ts : List Token} {s blanks : List Char}
    (hb : ∀ c ∈ blanks, Text.isBlank c = true) (h : Spread ts s) : Spread ts (blanks ++ s) := by
  cases h with
  | nil hb' =>
    refine .nil fun c hc => ?_
    rcases List.mem_append.1 hc with hc | hc
    · exact hb c hc
    · exact hb' c hc
  | cons hb' hs =>
    rw [← List.append_assoc]
    refine .cons (fun c hc => ?_) hs
    rcases List.mem_append.1 hc with hc | hc
    · exact hb c hc
    · exact hb' c hc

/-- Texts one after the other are spread over by their tokens one after the other. -/
theorem append {ts us : List Token} {s s' : List Char} (h : Spread ts s) (h' : Spread us s') :
    Spread (ts ++ us) (s ++ s') := by
  -- The blanks after the last token of the first text go in front of the second.
  induction h with
  | nil hb => exact h'.append_blanks hb
  | cons hb _ ih =>
    rw [List.append_assoc, List.append_assoc]
    exact .cons hb ih

theorem token (t : Token) : Spread [t] t.chars := by
  have h : Spread [t] ([] ++ (t.chars ++ [])) := .cons (by simp) (.nil (by simp))
  simpa using h

/-- A token directly before a text. -/
theorem cons_token (t : Token) {ts : List Token} {s : List Char} (h : Spread ts s) :
    Spread (t :: ts) (t.chars ++ s) :=
  (token t).append h

/-- Tokens with blanks before each of them are spread over the text that they make up. -/
theorem of_blanks (spaced : List (List Char × Token))
    (h : (spaced.all fun p => p.1.all Text.isBlank) = true) :
    Spread (spaced.map (·.2)) (spaced.flatMap fun p => p.1 ++ p.2.chars) := by
  induction spaced with
  | nil => exact .nil (by simp)
  | cons p spaced ih =>
    rw [List.all_cons, Bool.and_eq_true] at h
    rw [List.map_cons, List.flatMap_cons, List.append_assoc]
    exact .cons (List.all_eq_true.1 h.1) (ih h.2)

end Spread

/-! ### Names and arguments -/

/-- **A dotted name** and its words. -/
structure Words (name : String) (ws : List String) : Prop where
  /-- There is a word. -/
  ne_nil : ws ≠ []
  /-- Each of them is a word. -/
  isWord : ∀ w ∈ ws, Text.isWord w = true
  /-- They stand between dots. -/
  name_eq : ".".intercalate ws = name

/-- The tokens of a dotted name. -/
def dottedTokens : List String → List Token
  | [] => []
  | [w] => [.word w]
  | w :: ws => .word w :: .point :: dottedTokens ws

/-- The tokens of a keyword. -/
def keyTokens : Option String → List Token
  | none => []
  | some key => [.word key, .equals]

/-- The arguments of a call, each with its key if it has one. -/
def argumentsOf (positional : List Expr) (keywords : List (String × Expr)) :
    List (Option String × Expr) :=
  positional.map (fun e => (none, e)) ++ keywords.map fun ke => (some ke.1, ke.2)

/-- The tokens of arguments, up to the parenthesis that closes them. -/
inductive Listed (spells : Expr → List Token → Prop) :
    List (Option String × Expr) → List Token → Prop where
  /-- There is no argument, or none after a comma. -/
  | none : Listed spells [] [.closing]
  /-- The last argument without a comma after it. -/
  | last {key : Option String} {e : Expr} {ts : List Token} (h : spells e ts) :
      Listed spells [(key, e)] (keyTokens key ++ (ts ++ [.closing]))
  /-- An argument and the comma after it. -/
  | more {key : Option String} {e : Expr} {ts us : List Token}
      {rest : List (Option String × Expr)} (h : spells e ts) (hrest : Listed spells rest us) :
      Listed spells ((key, e) :: rest) (keyTokens key ++ (ts ++ .comma :: us))

/-- **The tokens of an expression.** -/
inductive Spells : Expr → List Token → Prop where
  /-- An integer. -/
  | int (value : Int64) : Spells (.int value) [.constant (.int value)]
  /-- A double. -/
  | float (value : Float) : Spells (.float value) [.constant (.float value)]
  /-- A quoted text. -/
  | quoted (value : String) : Spells (.quoted value) [.constant (.text value)]
  /-- A truth value. -/
  | truth (value : Bool) : Spells (.literal (.bool value)) [.word (truthText value)]
  /-- The absent value. -/
  | absent : Spells (.literal .none) [.word "None"]
  /-- A bare name. -/
  | name (w : String) : Spells (.name w) [.word w]
  /-- A member of an enumeration. -/
  | member {kind item : String} {ws : List String} (h : Words kind ws) :
      Spells (.member kind item) (dottedTokens (ws ++ [item]))
  /-- A call. -/
  | call {callee : String} {ws : List String} {positional : List Expr}
      {keywords : List (String × Expr)} {ts : List Token} (h : Words callee ws)
      (hargs : Listed Spells (argumentsOf positional keywords) ts) :
      Spells (.call callee positional keywords) (dottedTokens ws ++ .opening :: ts)

/-! ### Well formed expressions -/

namespace Expr

/-- Are the name, the keys and the number that a node shows itself of the right form? -/
def WellFormedHere : Expr → Prop
  | .literal (.float value) => value.isFinite = true
  | .literal _ => True
  | .member kind item => (∃ ws, Words kind ws) ∧ Text.isWord item = true
  | .name w => Text.isWord w = true ∧ w ∉ ["True", "False", "None"]
  | .call callee _ keywords => (∃ ws, Words callee ws) ∧
    (∀ ke ∈ keywords, Text.isWord ke.1 = true) ∧ (keywords.map (·.1)).Nodup

/-- **A well formed expression**: its names are words, its numbers are finite and no call
has a keyword twice. -/
def WellFormed (e : Expr) : Prop :=
  ∀ t ∈ e.subterms, t.WellFormedHere

theorem WellFormed.here {e : Expr} (h : e.WellFormed) : e.WellFormedHere :=
  h e (by cases e <;> simp [subterms])

/-- A call is well formed if it is so itself and its arguments are. -/
theorem wellFormed_call {c : String} {ps : List Expr} {ks : List (String × Expr)} :
    (call c ps ks).WellFormed ↔ (call c ps ks).WellFormedHere ∧ (∀ e ∈ ps, e.WellFormed) ∧
      ∀ ke ∈ ks, ke.2.WellFormed :=
  forall_subterms_call

end Expr

end TradeSignals
