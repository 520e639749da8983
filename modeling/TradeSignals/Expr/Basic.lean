/-!
# Expressions

The language that strategies are written in has values and calls and nothing else:
literals, members of enumerations such as `Interval.ONE_DAY`, bare names, and calls
with positional arguments followed by keyword arguments. A bare name never stands
for a value; it is a form of its own so that a reader of the tree can say which name
it met.

Two ways through a tree are used everywhere: equality, which is decidable (floats are
compared by their bits), and the list of all subterms in the order in which they are
written, each node before its arguments and positional arguments before keyword
values.
-/

namespace TradeSignals

/-- Constants of strategy text. -/
inductive Literal where
  /-- A 64-bit integer. -/
  | int (value : Int64)
  /-- A double. -/
  | float (value : Float)
  /-- A truth value. -/
  | bool (value : Bool)
  /-- A quoted text. -/
  | text (value : String)
  /-- The absent value. -/
  | none
deriving DecidableEq

/-- Expressions of strategy text. -/
inductive Expr where
  /-- A constant. -/
  | literal (value : Literal)
  /-- A member of an enumeration. -/
  | member (kind item : String)
  /-- A bare name. -/
  | name (name : String)
  /-- A call with positional and keyword arguments. -/
  | call (callee : String) (positional : List Expr) (keywords : List (String × Expr))

namespace Expr

/-- An integer constant. -/
abbrev int (value : Int64) : Expr := .literal (.int value)

/-- A constant with a fraction. -/
abbrev float (value : Float) : Expr := .literal (.float value)

/-- A quoted constant. -/
abbrev quoted (value : String) : Expr := .literal (.text value)

/-! ### Equality -/

mutual

/-- Equality of expressions is decided by walking both. -/
def decEq : (a b : Expr) → Decidable (a = b)
  | .literal a, .literal b => decidable_of_iff (a = b) (by simp)
  | .member k m, .member k' m' => decidable_of_iff (k = k' ∧ m = m') (by simp)
  | .name a, .name b => decidable_of_iff (a = b) (by simp)
  | .call f as ks, .call g bs ls =>
    match decEqPositional as bs, decEqKeywords ks ls with
    | .isTrue h, .isTrue h' => decidable_of_iff (f = g) (by simp [h, h'])
    | .isFalse h, _ => .isFalse (by simp [h])
    | _, .isFalse h => .isFalse (by simp [h])
  | .literal _, .member _ _ | .literal _, .name _ | .literal _, .call _ _ _
  | .member _ _, .literal _ | .member _ _, .name _ | .member _ _, .call _ _ _
  | .name _, .literal _ | .name _, .member _ _ | .name _, .call _ _ _
  | .call _ _ _, .literal _ | .call _ _ _, .member _ _ | .call _ _ _, .name _ =>
    .isFalse (by simp)

/-- Equality of positional arguments. -/
def decEqPositional : (as bs : List Expr) → Decidable (as = bs)
  | [], [] => .isTrue rfl
  | [], _ :: _ | _ :: _, [] => .isFalse (by simp)
  | a :: as, b :: bs =>
    match decEq a b, decEqPositional as bs with
    | .isTrue h, .isTrue h' => .isTrue (by simp [h, h'])
    | .isFalse h, _ => .isFalse (by simp [h])
    | _, .isFalse h => .isFalse (by simp [h])

/-- Equality of keyword arguments. -/
def decEqKeywords : (as bs : List (String × Expr)) → Decidable (as = bs)
  | [], [] => .isTrue rfl
  | [], _ :: _ | _ :: _, [] => .isFalse (by simp)
  | (k, a) :: as, (l, b) :: bs =>
    match decEq a b, decEqKeywords as bs with
    | .isTrue h, .isTrue h' => decidable_of_iff (k = l) (by simp [h, h'])
    | .isFalse h, _ => .isFalse (by simp [h])
    | _, .isFalse h => .isFalse (by simp [h])

end

instance : DecidableEq Expr := decEq

/-! ### Subterms -/

mutual

/-- All subterms in the order in which they are written, the expression itself
first. -/
def subterms : Expr → List Expr
  | .call callee positional keywords =>
    .call callee positional keywords ::
      (subtermsPositional positional ++ subtermsKeywords keywords)
  | e => [e]

/-- The subterms of positional arguments. -/
def subtermsPositional : List Expr → List Expr
  | [] => []
  | e :: rest => e.subterms ++ subtermsPositional rest

/-- The subterms of keyword values. -/
def subtermsKeywords : List (String × Expr) → List Expr
  | [] => []
  | (_, e) :: rest => e.subterms ++ subtermsKeywords rest

end

/-- The subterms of positional arguments, one argument after the other. -/
theorem subtermsPositional_eq (es : List Expr) :
    subtermsPositional es = es.flatMap subterms := by
  induction es with
  | nil => rfl
  | cons e rest ih => simp [subtermsPositional, ih]

/-- The subterms of keyword values, one value after the other. -/
theorem subtermsKeywords_eq (kes : List (String × Expr)) :
    subtermsKeywords kes = kes.flatMap fun ke => ke.2.subterms := by
  induction kes with
  | nil => rfl
  | cons ke rest ih => simp [subtermsKeywords, ih]

/-- An expression is its own first subterm. -/
theorem head?_subterms (e : Expr) : e.subterms.head? = some e := by
  cases e <;> simp [subterms]

end Expr

end TradeSignals
