import TradeSignals.Decimal.Basic

/-!
# How numbers are written

Two ways to write a double are used. In strategy text and in reports a number shows
that it is one with a fraction and takes an exponent when it is very large or very
small; in messages for people it is written out in full and a whole number has no
fraction. Both write the digits of the shortest decimal that reads back, so the two
differ in layout alone, and a layout is a record of two decisions.
-/

namespace TradeSignals

/-- How a number is laid out. The *place* of a number `0.d₁d₂… · 10 ^ p` with `d₁` not
zero is `p`: how many digits stand before the point. -/
structure NumberLayout where
  /-- The least and the greatest place of the numbers that are written out; all other
  numbers take an exponent. Without bounds every number is written out. -/
  writtenOut : Option (Int × Int)
  /-- Whether a whole number that is written out ends in `.0`. -/
  fraction : Bool

namespace NumberLayout

/-- Numbers in strategy text and in reports: written out from `0.0001` up to sixteen
digits before the point, and always with a fraction or an exponent. -/
def canonical : NumberLayout := ⟨some (-3, 16), true⟩

/-- Numbers in messages and in files: every number written out, whole numbers bare. -/
def plain : NumberLayout := ⟨none, false⟩

/-- The digits of a decimal with its point in place. -/
def positional (layout : NumberLayout) (digits : List Char) (exponent : Int) : List Char :=
  if 0 ≤ exponent then
    digits ++ List.replicate exponent.toNat '0' ++ (if layout.fraction then ['.', '0'] else [])
  else
    let place := digits.length + exponent
    if 0 < place then digits.take place.toNat ++ '.' :: digits.drop place.toNat
    else '0' :: '.' :: (List.replicate (-place).toNat '0' ++ digits)

/-- The digits of a decimal with one digit before the point and a power of ten. -/
def scientific (digits : List Char) (exponent : Int) : List Char :=
  let power := digits.length + exponent - 1
  digits.take 1 ++ (if digits.length ≤ 1 then [] else '.' :: digits.drop 1) ++
    'e' :: (toString power).toList

/-- A decimal in a layout. -/
def decimal (layout : NumberLayout) (d : Decimal) : List Char :=
  let digits := Nat.toDigits 10 d.significand
  let place := digits.length + d.exponent
  let out := match layout.writtenOut with
    | none => true
    | some (least, greatest) => decide (least ≤ place) && decide (place ≤ greatest)
  if out then layout.positional digits d.exponent else scientific digits d.exponent

/-- Is the sign bit of a double set? -/
def isNegative (x : Float) : Bool :=
  decide (Nat.pow 2 63 ≤ x.toBits.toNat)

/-- A double that is not negative in a layout. -/
def magnitude (layout : NumberLayout) (x : Float) : List Char :=
  if x.isInf then "inf".toList
  else if x.toBits.toNat % Nat.pow 2 63 = 0 then
    if layout.fraction then "0.0".toList else "0".toList
  else layout.decimal (Decimal.shortest x)

/-- **A double in a layout.** A sign is written for negative zero too, and not for the
missing number. -/
def text (layout : NumberLayout) (x : Float) : String :=
  String.ofList <|
    if x.isNaN then "NaN".toList
    else if isNegative x then '-' :: layout.magnitude x.abs
    else layout.magnitude x

example : canonical.text 100 = "100.0" := by decide +kernel
example : canonical.text 1e16 = "1e16" := by decide +kernel
example : canonical.text 1.5e-7 = "1.5e-7" := by decide +kernel
example : canonical.text 0.0001 = "0.0001" := by decide +kernel
example : canonical.text (-0.0) = "-0.0" := by decide +kernel
example : plain.text 10000 = "10000" := by decide +kernel
example : plain.text 1e20 = "100000000000000000000" := by decide +kernel
example : plain.text (-2.5) = "-2.5" := by decide +kernel

end NumberLayout

end TradeSignals
