/-! Binary floating-point numbers of 53 significant bits as exact values: a sign and a mantissa
times a power of two. A decimal text denotes the nearest such number, and of two equally near
ones the one with the even mantissa. -/

namespace DeclaredAccess.Number

/-- The number `mantissa * 2 ^ exponent`, negated when `negative` holds. The mantissa has 53
bits, or fewer when the exponent is the least one. -/
structure Binary64 where
  negative : Bool
  mantissa : Nat
  exponent : Int
  deriving DecidableEq, Repr

/-- A non-negative rational number `numerator / denominator`. -/
structure Ratio where
  numerator : Nat
  denominator : Nat

namespace Ratio

/-- The rational times `base ^ e`. -/
def scale (a : Ratio) (base : Nat) (e : Int) : Ratio :=
  if 0 ≤ e then ⟨a.numerator * base.pow e.toNat, a.denominator⟩
  else ⟨a.numerator, a.denominator * base.pow (-e).toNat⟩

/-- The rational `n * base ^ e`. -/
def scaled (n base : Nat) (e : Int) : Ratio := scale ⟨n, 1⟩ base e

def lt (a b : Ratio) : Bool := a.numerator * b.denominator < b.numerator * a.denominator

def le (a b : Ratio) : Bool := !b.lt a

def floor (a : Ratio) : Nat := a.numerator / a.denominator

/-- The nearest natural number, the even one of two. -/
def nearest (a : Ratio) : Nat :=
  let q := a.floor
  let twice := 2 * (a.numerator % a.denominator)
  if twice < a.denominator then q
  else if a.denominator < twice then q + 1
  else if q % 2 = 0 then q else q + 1

end Ratio

namespace Binary64

def leastExponent : Int := -1074

def greatestExponent : Int := 971

/-- The least mantissa of 53 bits. -/
def leastFull : Nat := Nat.pow 2 52

def isZero (x : Binary64) : Bool := x.mantissa == 0

/-- The distance from zero. -/
def magnitude (x : Binary64) : Ratio := .scaled x.mantissa 2 x.exponent

/-- The floor of the binary logarithm of a positive rational. -/
def binaryLog (r : Ratio) : Int :=
  let guess : Int := r.numerator.log2 - r.denominator.log2
  if r.lt (.scaled 1 2 guess) then guess - 1 else guess

/-- The number nearest to a positive rational; none when it is out of range. -/
def nearest? (negative : Bool) (r : Ratio) : Option Binary64 :=
  let exponent := max leastExponent (binaryLog r - 52)
  let m := (r.scale 2 (-exponent)).nearest
  let rounded : Binary64 :=
    if m = 2 * leastFull then ⟨negative, leastFull, exponent + 1⟩ else ⟨negative, m, exponent⟩
  if rounded.exponent ≤ greatestExponent then some rounded else none

/-- The number nearest to `digits * 10 ^ scale`. Where the scale alone settles the answer, no
power is computed. -/
def ofDecimal? (negative : Bool) (digits : Nat) (scale : Int) : Option Binary64 :=
  let size : Int := (Nat.toDigits 10 digits).length + scale
  if digits = 0 || size < -330 then some ⟨negative, 0, leastExponent⟩
  else if 310 < size then none
  else nearest? negative (.scaled digits 10 scale)

/-- The number as a quotient of whole numbers, which is the same for the two zeroes. -/
def quotient (x : Binary64) : Int × Nat :=
  let m := x.magnitude
  (if x.negative then -Int.ofNat m.numerator else Int.ofNat m.numerator, m.denominator)

end Binary64

end DeclaredAccess.Number
