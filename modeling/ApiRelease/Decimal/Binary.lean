/-! # Doubles as exact binary fractions

A finite double is `mantissa * 2 ^ exponent` with a sign. All printing, rounding
and reading of numbers works on this form in whole-number arithmetic; a double is
never used to compute its own digits.
-/
namespace ApiRelease.Decimal

inductive Parts where
  | nan
  | infinite (negative : Bool)
  | finite (negative : Bool) (mantissa : Nat) (exponent : Int)

/-- The bit in front of a stored mantissa, also the unit of the stored exponent. -/
def hiddenBit : Nat := 0x10000000000000

def signBit : Nat := 0x8000000000000000

def leastExponent : Int := -1074

def parts (x : Float) : Parts :=
  let bits := x.toBits.toNat
  let negative := bits / signBit == 1
  let scale := bits / hiddenBit % 2048
  let fraction := bits % hiddenBit
  if scale == 2047 then
    if fraction == 0 then .infinite negative else .nan
  else if scale == 0 then .finite negative fraction leastExponent
  else .finite negative (fraction + hiddenBit) (scale - 1075)

/-- The quotient rounded to the nearest whole number, a half to the even one. -/
def roundHalfEven (num den : Nat) : Nat :=
  let q := num / den
  let r := num % den
  if 2 * r > den || (2 * r == den && q % 2 == 1) then q + 1 else q

def powerUp (b : Nat) (e : Int) : Nat := Nat.pow b e.toNat

def powerDown (b : Nat) (e : Int) : Nat := Nat.pow b (-e).toNat

/-- The whole part of a finite double, toward zero; `none` for the others. -/
def truncate? (x : Float) : Option Int :=
  match parts x with
  | .finite negative m q =>
    let n : Int := (m * powerUp 2 q / powerDown 2 q : Nat)
    some (if negative then -n else n)
  | _ => none

def decimalDigits (n : Nat) : List Char := Nat.toDigits 10 n

end ApiRelease.Decimal
