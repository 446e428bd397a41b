/-!
# Binary numbers of 64 bits

A finite number is a whole number of 53 bits times a power of two. A decimal
becomes the nearest such number, and of two equally near ones the one whose
whole number is even.
-/
namespace MethodContracts

inductive Binary64 where
  /-- The number `mantissa * 2 ^ exponent`, or its negative. -/
  | finite (negative : Bool) (mantissa : Nat) (exponent : Int)
  | infinite (negative : Bool)
  | nan
deriving DecidableEq, Repr

/-- A fraction of natural numbers, greater than or equal to zero. -/
structure Ratio where
  num : Nat
  den : Nat
deriving DecidableEq, Repr

namespace Ratio

/-- The number `n * base ^ exponent`. -/
def scaled (n base : Nat) (exponent : Int) : Ratio :=
  ⟨n * base.pow exponent.toNat, base.pow (-exponent).toNat⟩

def lt (left right : Ratio) : Bool := decide (left.num * right.den < right.num * left.den)

def le (left right : Ratio) : Bool := decide (left.num * right.den ≤ right.num * left.den)

def floor (ratio : Ratio) : Nat := ratio.num / ratio.den

/-- The nearest whole number; of two equally near ones the even one. -/
def nearest (ratio : Ratio) : Nat :=
  let whole := ratio.floor
  let twice := 2 * (ratio.num - whole * ratio.den)
  if twice < ratio.den then whole
  else if ratio.den < twice then whole + 1
  else if whole % 2 = 0 then whole
  else whole + 1

/-- The number divided by `base ^ exponent`. -/
def descale (ratio : Ratio) (base : Nat) (exponent : Int) : Ratio :=
  ⟨ratio.num * base.pow (-exponent).toNat, ratio.den * base.pow exponent.toNat⟩

end Ratio

namespace Binary64

/-- The least exponent of a number. -/
def minExponent : Int := -1074

/-- The exponent for which the whole number has 53 bits, or the least exponent. -/
def exponentOf (ratio : Ratio) : Int :=
  let guess : Int := (ratio.num.log2 : Int) - ratio.den.log2 - 52
  -- The logarithms are rounded down, so the guess may be one too large.
  let exponent := if (Ratio.scaled (Nat.pow 2 52) 2 guess).le ratio then guess else guess - 1
  max exponent minExponent

/-- The nearest number to a fraction that is not zero. -/
def ofRatio (negative : Bool) (ratio : Ratio) : Binary64 :=
  let exponent := exponentOf ratio
  let mantissa := (ratio.descale 2 exponent).nearest
  if (Ratio.scaled 1 2 1024).le (.scaled mantissa 2 exponent) then .infinite negative
  -- Rounding up may take one bit more.
  else if mantissa = Nat.pow 2 53 then .finite negative (Nat.pow 2 52) (exponent + 1)
  else .finite negative mantissa exponent

/-- The nearest number to `digits * 10 ^ exponent`. -/
def ofDecimal (negative : Bool) (digits : Nat) (exponent : Int) : Binary64 :=
  let magnitude := (Nat.toDigits 10 digits).length + exponent
  -- Far out of range the powers of ten need not be computed.
  if digits = 0 ∨ magnitude < -400 then .finite negative 0 0
  else if 400 < magnitude then .infinite negative
  else ofRatio negative (.scaled digits 10 exponent)

end Binary64
end MethodContracts
