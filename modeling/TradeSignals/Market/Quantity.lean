/-!
# Quantities

Prices and what is computed from them are numbers of which some may be missing. The
program computes with doubles; what it computes makes sense for any numbers with the
four operations, an order and a missing number, and the studies of this library are
written for all of them at once.

The order of operations is part of what a study is: doubles round, so a sum is taken
from the left, and it begins with a zero of its own, which for doubles is the negative
one.
-/

namespace TradeSignals

/-- Numbers to compute prices with, one of which stands for a number that is missing. -/
class Quantity (α : Type) extends Add α, Sub α, Mul α, Div α, Neg α where
  /-- An integer as a number. -/
  ofInt : Int → α
  /-- The number that stands for one that is missing. -/
  missing : α
  /-- Is a number missing? -/
  isMissing : α → Bool
  /-- The sum of no numbers. -/
  emptySum : α
  /-- The square root. -/
  sqrt : α → α
  /-- The absolute value. -/
  abs : α → α
  /-- Is the first number less than the second? -/
  lt : α → α → Bool
  /-- Is the first number at most the second? -/
  le : α → α → Bool
  /-- Is a number zero? -/
  isZero : α → Bool
  /-- A number above all others. -/
  top : α
  /-- A number below all others. -/
  bottom : α

namespace Quantity

variable {α : Type} [Quantity α]

/-- A natural number as a number. -/
def ofNat (n : Nat) : α := ofInt n

/-- The sum of numbers, taken from the left. -/
def sum (xs : List α) : α := xs.foldl (· + ·) emptySum

/-- The greater of two numbers. A missing number gives way to the other, and of two
equal ones the second is taken, which for zeros decides the sign. -/
def max (a b : α) : α :=
  if isMissing a then b else if isMissing b then a else if lt b a then a else b

/-- The lesser of two numbers. A missing number gives way to the other, and of two
equal ones the second is taken, which for zeros decides the sign. -/
def min (a b : α) : α :=
  if isMissing a then b else if isMissing b then a else if lt a b then a else b

/-- A column of missing numbers. -/
def gaps (count : Nat) : List α := List.replicate count missing

end Quantity

/-- Doubles are quantities; the missing one is the double that is not a number. -/
instance : Quantity Float where
  ofInt := Float.ofInt
  missing := 0 / 0
  isMissing := Float.isNaN
  emptySum := -0.0
  sqrt := Float.sqrt
  abs := Float.abs
  lt a b := decide (a < b)
  le a b := decide (a ≤ b)
  isZero x := x == 0
  top := 1 / 0
  bottom := -1 / 0

end TradeSignals
