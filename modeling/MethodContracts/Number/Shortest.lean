import MethodContracts.Number.Binary64

/-!
# The shortest decimals

A finite number is written with the fewest decimal digits that are nearer to it
than to any other number, always with a point and never with an exponent. Of two
such decimals of one length the nearer is taken, and of equally near ones the
greater.
-/
namespace MethodContracts

/-- The number `digits * 10 ^ exponent`. -/
structure Decimal where
  digits : Nat
  exponent : Int
deriving DecidableEq, Repr

namespace Decimal

def ratio (decimal : Decimal) : Ratio := .scaled decimal.digits 10 decimal.exponent

/-- The same number without zeros at the end, at most `limit` of them. -/
def strip : Nat → Decimal → Decimal
  | 0, decimal => decimal
  | limit + 1, decimal =>
    if decimal.digits ≠ 0 ∧ decimal.digits % 10 = 0 then
      strip limit ⟨decimal.digits / 10, decimal.exponent + 1⟩
    else decimal

/-- Positional notation with at least one digit on either side of the point. -/
def text (decimal : Decimal) : String :=
  let digits := Nat.toDigits 10 decimal.digits
  let places := (-decimal.exponent).toNat
  -- Zeros in front make room for the point, zeros behind fill up a positive exponent.
  let padded :=
    List.replicate (places + 1 - digits.length) '0' ++ digits ++
      List.replicate decimal.exponent.toNat '0'
  let whole := padded.take (padded.length - places)
  let fraction := padded.drop (padded.length - places)
  String.ofList (whole ++ '.' :: (if fraction.isEmpty then ['0'] else fraction))

end Decimal

namespace Binary64

/-- Whether a decimal is nearer to `mantissa * 2 ^ exponent` than to any other
number, or lies in the middle and the mantissa is even. -/
def readsBack (mantissa : Nat) (exponent : Int) (decimal : Decimal) : Bool :=
  -- Below a power of two the next number is only half as far.
  let narrow := decide (mantissa = Nat.pow 2 52) && decide (minExponent < exponent)
  let low := Ratio.scaled (if narrow then 4 * mantissa - 1 else 4 * mantissa - 2) 2 (exponent - 2)
  let high := Ratio.scaled (4 * mantissa + 2) 2 (exponent - 2)
  if mantissa % 2 = 0 then low.le decimal.ratio && decimal.ratio.le high
  else low.lt decimal.ratio && decimal.ratio.lt high

/-- The least power of ten that is greater than the number. -/
def scale (ratio : Ratio) : Int :=
  let powers := (List.range 640).map fun (step : Nat) => (step : Int) - 325
  (powers.find? fun power => ratio.lt (.scaled 1 10 power)).getD 315

/-- The decimal of `count` digits that reads back, if there is one. -/
def ofLength? (mantissa : Nat) (exponent : Int) (power : Int) (count : Nat) : Option Decimal :=
  let ratio := Ratio.scaled mantissa 2 exponent
  let grid := power - count
  let position := ratio.descale 10 grid
  let below : Decimal := ⟨position.floor, grid⟩
  let above : Decimal := ⟨position.floor + 1, grid⟩
  -- If both read back, the nearer one counts, and in the middle the one above.
  match readsBack mantissa exponent below, readsBack mantissa exponent above with
  | true, true =>
    if 2 * (position.num - position.floor * position.den) < position.den then some below
    else some above
  | true, false => some below
  | false, true => some above
  | false, false => none

/-- The shortest decimal of `mantissa * 2 ^ exponent`, which is not zero. -/
def shortest (mantissa : Nat) (exponent : Int) : Decimal :=
  let value := Ratio.scaled mantissa 2 exponent
  let power := scale value
  let found := (List.range 17).findSome? fun count =>
    ofLength? mantissa exponent power (count + 1)
  -- Seventeen digits tell all numbers apart.
  let longest : Decimal := ⟨(value.descale 10 (power - 17)).floor, power - 17⟩
  (found.getD longest).strip 20

def text : Binary64 → String
  | .finite negative mantissa exponent =>
    (if negative then "-" else "") ++
      (if mantissa = 0 then "0.0" else (shortest mantissa exponent).text)
  | .infinite negative => if negative then "-inf" else "inf"
  | .nan => "NaN"

end Binary64
end MethodContracts
