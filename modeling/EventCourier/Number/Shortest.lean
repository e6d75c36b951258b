import EventCourier.Number.Double

/-!
# Shortest decimals

The decimal of a double is the one with the fewest digits that reads back as that double, and of those the
nearest to it. On each grid of decimals with a given number of digits only the two neighbours of the value
have to be tried: if any point of the grid reads back, one of them does. Digits and exponent are then laid
out by a `Layout`.
-/

namespace EventCourier

/-- The number `digits · 10^exponent`. -/
structure Decimal where
  digits : Nat
  exponent : Int
deriving DecidableEq, Repr

/-- Which of two equally near decimals is taken. -/
inductive Tie where
  | toEven
  | up
deriving DecidableEq, Repr

namespace Decimal

/-- Drops zeros at the end of the digits. -/
def trimZeros : Nat → Decimal → Decimal
  | 0, d => d
  | fuel + 1, d =>
    if d.digits ≠ 0 ∧ d.digits % 10 = 0 then trimZeros fuel ⟨d.digits / 10, d.exponent + 1⟩ else d

/-- How many digits a natural number has. -/
def width (n : Nat) : Nat := (Nat.toDigits 10 n).length

/-- The exponent of the leading digit of `num / den`. -/
def leadingExponent (num den : Nat) : Int :=
  if den ≤ num then (width (num / den) : Int) - 1 else -(width ((den - 1) / num) : Int)

/-- `2^q · num` against powers of ten: the factors of the common unit on the side of the binary number and
on the side of the grid `10^k`. -/
def unitFactors (q k : Int) : Nat × Nat :=
  (Nat.pow 2 q.toNat * Nat.pow 10 (-k).toNat, Nat.pow 10 k.toNat * Nat.pow 2 (-q).toNat)

/-- The nearer of the two neighbours on the grid `10^k` that lies in the interval of the double `m · 2^q`;
both ends belong to it when `m` is even. -/
def onGrid? (tie : Tie) (m : Nat) (q k : Int) : Option Decimal :=
  let (u, g) := unitFactors (q - 2) k
  let value := 4 * m * u
  let low := (4 * m - (if m = 0x10000000000000 ∧ Double.minExponent < q then 1 else 2)) * u
  let high := (4 * m + 2) * u
  let inside (c : Nat) : Bool :=
    if m % 2 = 0 then decide (low ≤ c * g ∧ c * g ≤ high) else decide (low < c * g ∧ c * g < high)
  let c := value / g
  let below := value - c * g
  let above := (c + 1) * g - value
  match inside c, inside (c + 1) with
  | false, false => none
  | true, false => some ⟨c, k⟩
  | false, true => some ⟨c + 1, k⟩
  | true, true =>
    if below < above then some ⟨c, k⟩
    else if above < below then some ⟨c + 1, k⟩
    else match tie with
      | .toEven => some ⟨if c % 2 = 0 then c else c + 1, k⟩
      | .up => some ⟨c + 1, k⟩

/-- The shortest decimal of `m · 2^q`, from grids of one to seventeen digits; the last of them always has a
point. -/
def shortest (tie : Tie) (m : Nat) (q : Int) : Decimal :=
  if m = 0 then ⟨0, 0⟩
  else
    let top := leadingExponent (m * Nat.pow 2 q.toNat) (Nat.pow 2 (-q).toNat)
    let found := (List.range 17).findSome? fun (i : Nat) => onGrid? tie m q (top - i)
    trimZeros 17 (found.getD ⟨m, q⟩)

end Decimal

/-- How a format writes doubles: which leading exponents are written without an exponent, what follows a
whole number there, and the texts of the values that have no digits. -/
structure Layout where
  tie : Tie
  positional : Int → Bool
  wholeSuffix : List Char
  nan : List Char
  infinity : List Char

namespace Layout

/-- Digits and exponent without an exponent mark. -/
def plain (suffix : List Char) (ds : List Char) (exponent : Int) : List Char :=
  if 0 ≤ exponent then ds ++ List.replicate exponent.toNat '0' ++ suffix
  else
    let places := (-exponent).toNat
    if places < ds.length then ds.take (ds.length - places) ++ '.' :: ds.drop (ds.length - places)
    else '0' :: '.' :: (List.replicate (places - ds.length) '0' ++ ds)

/-- One digit before the point and a signed exponent. -/
def scientific (ds : List Char) (lead : Int) : List Char :=
  let mantissa := match ds with
    | [] => []
    | [d] => [d]
    | d :: rest => d :: '.' :: rest
  mantissa ++ 'e' :: (if lead < 0 then '-' else '+') :: Nat.toDigits 10 lead.natAbs

/-- The text of a double. -/
def chars (style : Layout) (x : Double) : List Char :=
  match x.shape with
  | .nan => style.nan
  | .infinite negative => (if negative then ['-'] else []) ++ style.infinity
  | .finite negative m q =>
    let d := Decimal.shortest style.tie m q
    let ds := Nat.toDigits 10 d.digits
    let lead := (ds.length : Int) - 1 + d.exponent
    (if negative then ['-'] else []) ++
      (if style.positional lead then plain style.wholeSuffix ds d.exponent else scientific ds lead)

end Layout
end EventCourier
