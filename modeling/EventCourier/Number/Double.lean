/-!
# Doubles

A double is its 64 bits. `shape` reads them as a signed dyadic number `m · 2^q`; `ofQuotient` goes back from
an exact quotient to the nearest double, ties to even, so that arithmetic on doubles is exact integer
arithmetic followed by one rounding.
-/

namespace EventCourier

/-- A double-precision number, kept as its bits. -/
structure Double where
  bits : UInt64
deriving DecidableEq, Repr, Inhabited

/-- The quotient of two naturals rounded to the nearest, ties to even. -/
def roundQuotient (num den : Nat) : Nat :=
  let q := num / den
  let r := num % den
  if 2 * r < den ∨ (2 * r = den ∧ q % 2 = 0) then q else q + 1

namespace Double

/-- What the bits of a double stand for; a finite one is `± m · 2^q`. -/
inductive Shape where
  | nan
  | infinite (negative : Bool)
  | finite (negative : Bool) (m : Nat) (q : Int)
deriving DecidableEq, Repr

/-- The least exponent of a double, that of the subnormal numbers. -/
def minExponent : Int := -1074

/-- The magnitude bits of infinity. -/
def infinityBits : Nat := 0x7FF * 0x10000000000000

/-- Reads sign, exponent and fraction. -/
def shape (x : Double) : Shape :=
  let n := x.bits.toNat
  let negative := decide (0x8000000000000000 ≤ n)
  let exponent : Nat := n / 0x10000000000000 % 0x800
  let fraction := n % 0x10000000000000
  if exponent = 0x7FF then (if fraction = 0 then .infinite negative else .nan)
  else if exponent = 0 then .finite negative fraction minExponent
  else .finite negative (fraction + 0x10000000000000) ((exponent : Int) + minExponent - 1)

/-- True of all but NaN and the infinities. -/
def isFinite (x : Double) : Bool :=
  match x.shape with
  | .finite .. => true
  | _ => false

/-- A sign and magnitude bits put together. -/
def ofMagnitude (negative : Bool) (magnitude : Nat) : Double :=
  ⟨UInt64.ofNat ((if negative then 0x8000000000000000 else 0) + magnitude)⟩

/-- The double nearest to `± num / den`, ties to even; past the largest one it is infinite. -/
def ofQuotient (negative : Bool) (num den : Nat) : Double :=
  if num = 0 then ofMagnitude negative 0
  else
    let scaled (e : Int) : Nat × Nat :=
      if 0 ≤ e then (num, den * Nat.pow 2 e.toNat) else (num * Nat.pow 2 (-e).toNat, den)
    let guess : Int := (num.log2 : Int) - den.log2 - 53
    let tight := if (scaled guess).1 / (scaled guess).2 < 0x20000000000000 then guess else guess + 1
    let e := max tight minExponent
    let m := roundQuotient (scaled e).1 (scaled e).2
    ofMagnitude negative (min ((e - minExponent).toNat * 0x10000000000000 + m) infinityBits)

/-- The double nearest to an integer. -/
def ofInt (n : Int) : Double := ofQuotient (n < 0) n.natAbs 1

/-- The double nearest to `x · num / den`. -/
def scale (x : Double) (num den : Nat) : Double :=
  match x.shape with
  | .finite negative m q =>
    if 0 ≤ q then ofQuotient negative (m * num * Nat.pow 2 q.toNat) den
    else ofQuotient negative (m * num) (den * Nat.pow 2 (-q).toNat)
  | _ => x

/-- The double nearest to an integer times `2^q`. -/
def ofDyadic (n q : Int) : Double :=
  if 0 ≤ q then ofQuotient (n < 0) (n.natAbs * Nat.pow 2 q.toNat) 1
  else ofQuotient (n < 0) n.natAbs (Nat.pow 2 (-q).toNat)

/-- The double nearest to the sum of two finite ones; another operand is returned as it is. -/
def add (x y : Double) : Double :=
  match x.shape, y.shape with
  | .finite s m q, .finite t n r =>
    let low := min q r
    let signed (negative : Bool) (m : Nat) (q : Int) : Int :=
      (if negative then -1 else 1) * m * Nat.pow 2 (q - low).toNat
    ofDyadic (signed s m q + signed t n r) low
  | .finite .., _ => y
  | _, _ => x

/-- The same magnitude under the other sign. -/
def neg (x : Double) : Double := ⟨x.bits ^^^ 0x8000000000000000⟩

/-- True of the two zeros. -/
def isZero (x : Double) : Bool :=
  match x.shape with
  | .finite _ m _ => m == 0
  | _ => false

/-- A natural number rounded to 53 significant bits, ties to even: the integer value of the double nearest
to it. -/
def roundToBits53 (n : Nat) : Nat :=
  let extra := n.log2 - 52
  roundQuotient n (Nat.pow 2 extra) * Nat.pow 2 extra

end Double
end EventCourier
