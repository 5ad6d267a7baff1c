import DeclaredAccess.Number.Binary64

/-! The text of a floating-point number: the fewest decimal digits that denote it, and of the
shortest such texts the one nearest to it. -/

namespace DeclaredAccess.Number.Binary64

/-- The numbers that round to this one: the ends belong to it when the mantissa is even. -/
structure Interval where
  lower : Ratio
  upper : Ratio
  closed : Bool

def Interval.contains (i : Interval) (r : Ratio) : Bool :=
  if i.closed then i.lower.le r && r.le i.upper else i.lower.lt r && r.lt i.upper

/-- Half way to the neighbours on both sides; below a power of two the neighbour is nearer. -/
def interval (x : Binary64) : Interval where
  lower :=
    if x.mantissa = leastFull && leastExponent < x.exponent then
      .scaled (4 * x.mantissa - 1) 2 (x.exponent - 2)
    else .scaled (2 * x.mantissa - 1) 2 (x.exponent - 1)
  upper := .scaled (2 * x.mantissa + 1) 2 (x.exponent - 1)
  closed := x.mantissa % 2 == 0

/-- The least `p` with the positive rational `r < 10 ^ p`, searched upward from `p`. -/
def decimalSize (r : Ratio) : Nat → Int → Int
  | 0, p => p
  | fuel + 1, p => if r.lt (.scaled 1 10 p) then p else decimalSize r fuel (p + 1)

/-- The distance of two rationals over a common denominator. -/
def gap (a b : Ratio) : Nat :=
  let x := a.numerator * b.denominator
  let y := b.numerator * a.denominator
  (x - y) + (y - x)

/-- The best decimal with steps of `10 ^ step` inside the interval, if there is one. -/
def onGrid? (x : Binary64) (step : Int) : Option Nat :=
  let v := x.magnitude
  let down := (v.scale 10 (-step)).floor
  let below := Ratio.scaled down 10 step
  let above := Ratio.scaled (down + 1) 10 step
  match x.interval.contains below, x.interval.contains above with
  | false, false => none
  | true, false => some down
  | false, true => some (down + 1)
  | true, true =>
    -- both gaps are over the same denominator
    let d := gap v below
    let u := gap v above
    some (if d < u then down else if u < d then down + 1
      else if down % 2 = 0 then down else down + 1)

/-- The digits on the coarsest grid that has a hit, from `n` digits on, with the grid's step. -/
def search (x : Binary64) (size : Int) : Nat → Nat → Nat × Int
  | 0, n => (x.mantissa, size - n)
  | fuel + 1, n => match onGrid? x (size - n) with
    | some d => (d, size - n)
    | none => search x size fuel (n + 1)

/-- The shortest digits of a positive magnitude, and the place of the point counted from the
front. -/
def shortest (x : Binary64) : List Char × Int :=
  let (d, step) := search x (decimalSize x.magnitude 700 (-330)) 17 1
  let ds := Nat.toDigits 10 d
  ((ds.reverse.dropWhile (· == '0')).reverse, ds.length + step)

/-- Positional notation puts the point at most this many digits from the front. -/
def greatestPoint : Int := 16

/-- Positional notation has at most this many zeroes after the point. -/
def leastPoint : Int := -3

/-- An exponent has a sign and at least two digits. -/
def exponentText (e : Int) : String :=
  let ds := String.ofList (Nat.toDigits 10 e.natAbs)
  (if e < 0 then "e-" else "e+") ++ (if e.natAbs < 10 then "0" else "") ++ ds

/-- Digits with their point: positional notation keeps a digit on both sides of it. -/
def notate (ds : List Char) (point : Int) : String :=
  if leastPoint ≤ point && point ≤ greatestPoint then
    if point ≤ 0 then "0." ++ String.ofList (List.replicate (-point).toNat '0' ++ ds)
    else
      let whole := ds.take point.toNat
      let rest := ds.drop point.toNat
      String.ofList (whole ++ List.replicate (point.toNat - whole.length) '0') ++ "." ++
        (if rest.isEmpty then "0" else String.ofList rest)
  else
    String.ofList (ds.take 1) ++ (if ds.length ≤ 1 then "" else "." ++ String.ofList (ds.drop 1)) ++
      exponentText (point - 1)

def text (x : Binary64) : String :=
  (if x.negative then "-" else "") ++
    if x.isZero then "0.0" else let (ds, point) := x.shortest; notate ds point

end DeclaredAccess.Number.Binary64
