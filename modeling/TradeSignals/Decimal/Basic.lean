/-!
# Decimal numbers and doubles

A decimal is a natural number times a power of ten. Reading one means finding the
double nearest to it, which core's correctly rounded conversion does; writing a
double means finding the decimal with the fewest digits that reads back as that
double. The second half of this module does so by search: it walks from coarse
decimal grids to finer ones and stops at the first grid of which one of the two
points around the double reads back.
-/

namespace TradeSignals

/-- A decimal number that is not negative, `significand · 10 ^ exponent`. -/
structure Decimal where
  /-- The digits, read as a natural number. -/
  significand : Nat
  /-- The power of ten that the digits are multiplied by. -/
  exponent : Int
deriving DecidableEq, Repr

namespace Decimal

-- Powers are written `Nat.pow`: what `^` stands for depends on whether algebra is loaded.

/-- The double nearest to a decimal; of two equally near the one with the even last
bit, and infinity beyond the largest double. -/
def toFloat (d : Decimal) : Float :=
  Float.ofScientific d.significand (d.exponent < 0) d.exponent.natAbs

/-- A finite double without its sign as `mantissa · 2 ^ power`. -/
def binaryParts (x : Float) : Nat × Int :=
  let bits := x.toBits.toNat
  let fraction : Nat := bits % Nat.pow 2 52
  let power : Nat := bits / Nat.pow 2 52 % Nat.pow 2 11
  if power = 0 then (fraction, -1074) else (fraction + Nat.pow 2 52, (power : Int) - 1075)

/-- The two points of the grid `10 ^ e` around `m · 2 ^ q`, the nearer one first; a
value half way between them counts as nearer to the greater one. -/
def neighbours (m : Nat) (q e : Int) : List Decimal :=
  let numerator := m * Nat.pow 2 q.toNat * Nat.pow 10 (-e).toNat
  let denominator := Nat.pow 2 (-q).toNat * Nat.pow 10 e.toNat
  let lower := numerator / denominator
  if 2 * (numerator % denominator) < denominator then [⟨lower, e⟩, ⟨lower + 1, e⟩]
  else [⟨lower + 1, e⟩, ⟨lower, e⟩]

/-- All the digits of `m · 2 ^ q`: a negative power of two is a power of five over
the same power of ten. -/
def exact (m : Nat) (q : Int) : Decimal :=
  ⟨m * Nat.pow 2 q.toNat * Nat.pow 5 (-q).toNat, min q 0⟩

/-- The decimal on the coarsest of the grids `10 ^ e`, `10 ^ (e - 1)`, … of which one
of the points around `m · 2 ^ q` reads back as `x`. -/
def coarsest (x : Float) (m : Nat) (q : Int) : (grids : Nat) → (e : Int) → Decimal
  | 0, _ => exact m q
  | grids + 1, e =>
    match (neighbours m q e).find? fun d => decide (d.toFloat = x) with
    | some d => d
    | none => coarsest x m q grids (e - 1)

/-- A power of ten above `m · 2 ^ q`, and above it by less than a factor of a
thousand: a power of two has about 0.30103 decimal digits for each of its bits. -/
def startingGrid (m : Nat) (q : Int) : Int :=
  ((m.log2 : Int) + q + 1) * 30103 / 100000 + 1

/-- **The shortest decimal** that reads back as the double `x`, which is to be finite,
positive and not zero. Seventeen digits tell all doubles apart, so twenty-four grids
are more than the search walks through. -/
def shortest (x : Float) : Decimal :=
  let (m, q) := binaryParts x
  coarsest x m q 24 (startingGrid m q)

/-- What the search finds on a grid reads back. -/
theorem toFloat_of_find? {x : Float} {m : Nat} {q e : Int} {d : Decimal}
    (h : (neighbours m q e).find? (fun d => decide (d.toFloat = x)) = some d) :
    d.toFloat = x := by
  simpa using List.find?_some h

/-- The search gives a decimal that reads back, or else all the digits of the value. -/
theorem toFloat_coarsest (x : Float) (m : Nat) (q : Int) (grids : Nat) (e : Int) :
    (coarsest x m q grids e).toFloat = x ∨ coarsest x m q grids e = exact m q := by
  induction grids generalizing e with
  | zero => exact .inr rfl
  | succ n ih =>
    unfold coarsest
    split
    · next h => exact .inl (toFloat_of_find? h)
    · exact ih (e - 1)

end Decimal

end TradeSignals
