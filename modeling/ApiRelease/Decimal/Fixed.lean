import ApiRelease.Decimal.Nearest

/-! # A fixed number of decimal places

The exact value of the double is rounded once, a half to the even last digit.
-/
namespace ApiRelease.Decimal

/-- `m * 2 ^ q * 10 ^ places` as a whole number. -/
def scaledRound (m : Nat) (q : Int) (places : Nat) : Nat :=
  roundHalfEven (m * powerUp 2 q * powerUp 10 places) (powerDown 2 q)

def placePoint (places n : Nat) : List Char :=
  let ds := decimalDigits n
  let ds := List.replicate (places + 1 - ds.length) '0' ++ ds
  let whole := ds.take (ds.length - places)
  if places == 0 then whole else whole ++ '.' :: ds.drop (ds.length - places)

def fixed (places : Nat) (x : Float) : String :=
  match parts x with
  | .nan => "nan"
  | .infinite negative => if negative then "-inf" else "inf"
  | .finite negative m q =>
    let text := placePoint places (scaledRound m q places)
    String.ofList (if negative then '-' :: text else text)

/-- The double nearest to `x` rounded to `places` decimal places. -/
def roundTo (places : Nat) (x : Float) : Float :=
  match parts x with
  | .finite negative m q => ofDecimal negative (scaledRound m q places) (-(places : Int))
  | _ => x

end ApiRelease.Decimal
