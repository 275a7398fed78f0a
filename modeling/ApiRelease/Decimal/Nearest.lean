import ApiRelease.Decimal.Binary

/-! # The double nearest to a decimal number

`digits * 10 ^ exponent` is rounded once, from its exact value, a half to the even
mantissa. Numbers beyond the largest double become infinite.
-/
namespace ApiRelease.Decimal

def infinityBits : Nat := 2047 * hiddenBit

def nearestBits (num den : Nat) : Nat :=
  let t : Int := (num.log2 : Int) - (den.log2 : Int)
  let fits (q : Int) : Bool :=
    num * powerDown 2 q < 2 * hiddenBit * (den * powerUp 2 q)
  let q := max leastExponent (t - 53)
  let q := if fits q then q else if fits (q + 1) then q + 1 else q + 2
  let n := roundHalfEven (num * powerDown 2 q) (den * powerUp 2 q)
  min infinityBits ((q - leastExponent).toNat * hiddenBit + n)

/-- Bits of the double nearest to `digits * 10 ^ exponent`. Exponents that no
double reaches are decided by size alone. -/
def nearestDecimalBits (digits : Nat) (exponent : Int) : Nat :=
  if digits == 0 then 0
  else
    let point := exponent + (decimalDigits digits).length
    if point > 310 then infinityBits
    else if point < -330 then 0
    else nearestBits (digits * powerUp 10 exponent) (powerDown 10 exponent)

def ofBitsSigned (negative : Bool) (bits : Nat) : Float :=
  Float.ofBits (UInt64.ofNat (if negative then bits + signBit else bits))

def ofDecimal (negative : Bool) (digits : Nat) (exponent : Int) : Float :=
  ofBitsSigned negative (nearestDecimalBits digits exponent)

/-- The nearest double, or `none` when the whole number is out of range. -/
def ofInt? (n : Int) : Option Float :=
  let bits := nearestDecimalBits n.natAbs 0
  if bits == infinityBits then none else some (ofBitsSigned (n < 0) bits)

def notANumber : Float := Float.ofBits (UInt64.ofNat (infinityBits + hiddenBit / 2))

def infinity (negative : Bool) : Float := ofBitsSigned negative infinityBits

end ApiRelease.Decimal
