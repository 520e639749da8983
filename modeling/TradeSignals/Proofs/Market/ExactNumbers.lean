import Mathlib.Algebra.BigOperators.Group.List.Basic
import Mathlib.Algebra.Order.Field.Basic
import TradeSignals.Proofs.Market.MissingNumbers

/-!
# Exact numbers

Doubles round at every step. What an indicator computes apart from that is said in exact arithmetic:
its numbers are those of an ordered field, and beside them stand one thing for a number that is
missing and two for what is above and below all numbers, with which a search for the least or the
greatest one begins (`TradeSignals.ExactNumber`).

What cannot be computed is missing: a quotient by zero, the root of a negative number, and whatever
is computed with something that is no number. So wherever an indicator gives a number, nothing of
the kind was computed on the way. Which number the root of another one is, is left open; it is a
parameter of the type, and what is proved here holds whatever it is.
-/

-- Outside of the namespace, where a `Field` is one of the fields of a strategy.
/-- **An ordered field,** as one thing: the numbers of exact arithmetic. -/
class OrderedField (K : Type) extends Field K, LinearOrder K, IsStrictOrderedRing K

instance : OrderedField ℚ where

namespace TradeSignals

/-- **Exact numbers,** of which some may be missing. The parameter gives the square roots. -/
inductive ExactNumber {K : Type} (root : K → K) where
  /-- A number. -/
  | number (x : K)
  /-- A number that is missing. -/
  | missing
  /-- What is above all numbers. -/
  | above
  /-- What is below all numbers. -/
  | below
deriving DecidableEq

namespace ExactNumber

variable {K : Type} {root : K → K}

/-- A number that may be missing. -/
def ofOption : Option K → ExactNumber root
  | some x => .number x
  | none => .missing

/-- What is computed from numbers; from anything else nothing is. -/
def compute (op : K → K → ExactNumber root) : ExactNumber root → ExactNumber root → ExactNumber root
  | .number x, .number y => op x y
  | _, _ => .missing

variable [OrderedField K]

instance : Add (ExactNumber root) := ⟨compute fun x y => .number (x + y)⟩

instance : Sub (ExactNumber root) := ⟨compute fun x y => .number (x - y)⟩

instance : Mul (ExactNumber root) := ⟨compute fun x y => .number (x * y)⟩

/-- There is no quotient by zero. -/
instance : Div (ExactNumber root) :=
  ⟨compute fun x y => if y = 0 then .missing else .number (x / y)⟩

instance : Neg (ExactNumber root) where
  neg
    | .number x => .number (-x)
    | _ => .missing

/-- Is the first number less than the second? What is missing is not, and not more either. -/
def isLess : ExactNumber root → ExactNumber root → Bool
  | .number x, .number y => decide (x < y)
  | .number _, .above => true
  | .below, .number _ => true
  | .below, .above => true
  | _, _ => false

/-- Is the first number at most the second? What is missing is not. -/
def isAtMost : ExactNumber root → ExactNumber root → Bool
  | .number x, .number y => decide (x ≤ y)
  | .missing, _ => false
  | _, .missing => false
  | _, .above => true
  | .below, _ => true
  | _, _ => false

/-- **Exact numbers are quantities.** -/
instance : Quantity (ExactNumber root) where
  ofInt n := .number n
  missing := .missing
  isMissing
    | .missing => true
    | _ => false
  emptySum := .number 0
  sqrt
    | .number x => if x < 0 then .missing else .number (root x)
    | _ => .missing
  abs
    | .number x => .number |x|
    | _ => .missing
  lt := isLess
  le := isAtMost
  isZero
    | .number x => decide (x = 0)
    | _ => false
  top := .above
  bottom := .below

/-- What is missing absorbs all numbers. -/
instance : Absorbing (ExactNumber root) where
  isMissing_missing := rfl
  missing_add _ := rfl
  add_missing x := by cases x <;> rfl
  missing_sub _ := rfl
  sub_missing x := by cases x <;> rfl
  missing_mul _ := rfl
  mul_missing x := by cases x <;> rfl
  missing_div _ := rfl
  sqrt_missing := rfl
  lt_missing x := by cases x <;> rfl
  missing_lt _ := rfl

/-! ### Computing with numbers -/

section Numbers

variable (x y : K)

@[simp]
theorem number_add : (number x + number y : ExactNumber root) = number (x + y) :=
  rfl

@[simp]
theorem number_sub : (number x - number y : ExactNumber root) = number (x - y) :=
  rfl

@[simp]
theorem number_mul : (number x * number y : ExactNumber root) = number (x * y) :=
  rfl

theorem number_div {y : K} (h : y ≠ 0) :
    (number x / number y : ExactNumber root) = number (x / y) :=
  if_neg h

@[simp]
theorem neg_number : -(number x : ExactNumber root) = number (-x) :=
  rfl

@[simp]
theorem abs_number : Quantity.abs (number x : ExactNumber root) = number |x| :=
  rfl

theorem sqrt_number {x : K} (h : 0 ≤ x) :
    Quantity.sqrt (number x : ExactNumber root) = number (root x) :=
  if_neg (not_lt.2 h)

@[simp]
theorem lt_number : Quantity.lt (number x : ExactNumber root) (number y) = decide (x < y) :=
  rfl

@[simp]
theorem le_number : Quantity.le (number x : ExactNumber root) (number y) = decide (x ≤ y) :=
  rfl

@[simp]
theorem isZero_number : Quantity.isZero (number x : ExactNumber root) = decide (x = 0) :=
  rfl

@[simp]
theorem isMissing_number : Quantity.isMissing (number x : ExactNumber root) = false :=
  rfl

@[simp]
theorem ofInt_zero : (Quantity.ofInt 0 : ExactNumber root) = number 0 :=
  congrArg number Int.cast_zero

@[simp]
theorem ofInt_one : (Quantity.ofInt 1 : ExactNumber root) = number 1 :=
  congrArg number Int.cast_one

@[simp]
theorem ofInt_ofNat (n : ℕ) [n.AtLeastTwo] :
    (Quantity.ofInt (OfNat.ofNat n) : ExactNumber root) = number (OfNat.ofNat n) :=
  congrArg number (Int.cast_ofNat n)

@[simp]
theorem ofNat_eq (n : ℕ) : (Quantity.ofNat n : ExactNumber root) = number (n : K) :=
  congrArg number (Int.cast_natCast n)

/-- The greater of two numbers. -/
@[simp]
theorem max_number : Quantity.max (number x : ExactNumber root) (number y) = number (max x y) := by
  simp only [Quantity.max, isMissing_number, lt_number, Bool.false_eq_true, if_false,
    decide_eq_true_eq]
  split
  next h => rw [max_eq_left (le_of_lt h)]
  next h => rw [max_eq_right (not_lt.1 h)]

/-- The lesser of two numbers. -/
@[simp]
theorem min_number : Quantity.min (number x : ExactNumber root) (number y) = number (min x y) := by
  simp only [Quantity.min, isMissing_number, lt_number, Bool.false_eq_true, if_false,
    decide_eq_true_eq]
  split
  next h => rw [min_eq_left (le_of_lt h)]
  next h => rw [min_eq_right (not_lt.1 h)]

/-- The sum of numbers. -/
theorem sum_number (xs : List K) :
    Quantity.sum (xs.map (number : K → ExactNumber root)) = number xs.sum := by
  have hfrom : ∀ total : K, (xs.map (number : K → ExactNumber root)).foldl (· + ·) (number total) =
      number (total + xs.sum) := by
    induction xs with
    | nil => exact fun total => congrArg number (add_zero total).symm
    | cons x xs ih =>
      intro total
      rw [List.map_cons, List.foldl_cons, number_add, ih, List.sum_cons, add_assoc]
  rw [← zero_add xs.sum]
  exact hfrom 0

end Numbers

end ExactNumber

end TradeSignals
