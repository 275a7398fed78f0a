import ApiRelease.Decimal.Binary

/-! # The fewest digits that read back

Every real number between two midpoints rounds to the same double, the midpoints
included when the mantissa is even. For one digit, two digits and so on, the two
neighbours of the value on that decimal grid are tried; the first grid with a
neighbour inside the interval wins, and of two neighbours the nearer one.
-/
namespace ApiRelease.Decimal

/-- The value `value / 4`, with the ends of its rounding interval in the same unit. -/
structure Interval where
  value : Nat
  low : Nat
  high : Nat
  closed : Bool

def interval (m : Nat) (q : Int) : Interval where
  value := 4 * m
  low := if m == hiddenBit && q > leastExponent then 4 * m - 1 else 4 * m - 2
  high := 4 * m + 2
  closed := m % 2 == 0

def Interval.holds (iv : Interval) (up down n : Nat) : Bool :=
  let c := n * down
  (decide (iv.low * up < c) || (iv.closed && iv.low * up == c)) &&
    (decide (c < iv.high * up) || (iv.closed && iv.high * up == c))

/-- The neighbour of the value on the grid of `10 ^ (-p)` that reads back. -/
def onGrid? (iv : Interval) (q : Int) (p : Int) : Option Nat :=
  let up := powerUp 2 (q - 2) * powerUp 10 p
  let down := powerDown 2 (q - 2) * powerDown 10 p
  let floor := iv.value * up / down
  let rest := iv.value * up % down
  match iv.holds up down floor, iv.holds up down (floor + 1) with
  | true, true =>
    some (if 2 * rest > down || (2 * rest == down && floor % 2 == 1) then floor + 1 else floor)
  | true, false => some floor
  | false, true => some (floor + 1)
  | false, false => none

def liftsToOne (num den : Nat) : Nat → Nat
  | 0 => 0
  | fuel + 1 => if num ≥ den then 0 else liftsToOne (num * 10) den fuel + 1

/-- `10 ^ (k - 1) ≤ value < 10 ^ k` for the returned `k`. -/
def pointPosition (m : Nat) (q : Int) : Int :=
  let num := m * powerUp 2 q
  let den := powerDown 2 q
  if num ≥ den then (decimalDigits (num / den)).length
  else 1 - (liftsToOne num den 400 : Int)

def firstGrid (iv : Interval) (q k : Int) (count : Nat) : Nat → Nat × Int
  | 0 => (0, 0)
  | fuel + 1 =>
    match onGrid? iv q (count - k) with
    | some n => (n, k - count)
    | none => firstGrid iv q k (count + 1) fuel

def dropZeros (ds : List Char) : List Char := (ds.reverse.dropWhile (· == '0')).reverse

/-- Digits without trailing zeros, and where the point stands before or after
them: `0.d₁d₂… * 10 ^ point`. -/
def shortestDigits (m : Nat) (q : Int) : List Char × Int :=
  let (n, e) := firstGrid (interval m q) q (pointPosition m q) 1 20
  let ds := decimalDigits n
  (dropZeros ds, ds.length + e)

/-- Positions of the point for which no exponent is written. -/
structure PointStyle where
  least : Int
  greatest : Int

def withExponent (ds : List Char) (point : Int) : List Char :=
  let e := point - 1
  let es := decimalDigits e.natAbs
  let es := if es.length < 2 then '0' :: es else es
  let tail := 'e' :: (if e < 0 then '-' else '+') :: es
  match ds with
  | [] => tail
  | [d] => d :: tail
  | d :: more => d :: '.' :: more ++ tail

def positional (ds : List Char) (point : Int) : List Char :=
  if point ≤ 0 then '0' :: '.' :: List.replicate (-point).toNat '0' ++ ds
  else if point.toNat ≥ ds.length then
    ds ++ List.replicate (point.toNat - ds.length) '0' ++ ['.', '0']
  else ds.take point.toNat ++ '.' :: ds.drop point.toNat

def shortest (style : PointStyle) (x : Float) : String :=
  match parts x with
  | .nan => "nan"
  | .infinite negative => if negative then "-inf" else "inf"
  | .finite negative m q =>
    let body :=
      if m == 0 then ['0', '.', '0']
      else
        let (ds, point) := shortestDigits m q
        if style.least ≤ point && point ≤ style.greatest then positional ds point
        else withExponent ds point
    String.ofList (if negative then '-' :: body else body)

end ApiRelease.Decimal
