import EventCourier.Text.Hex
import EventCourier.Text.Utf8

/-!
# Percent encoding

Letters, digits and `-`, `_`, `.`, `~` stand for themselves; every other byte is written as `%` and two
hexadecimal digits in upper case.
-/

namespace EventCourier.Percent

/-- True of the bytes that stand for themselves. -/
def isUnreserved (b : UInt8) : Bool :=
  let n := b.toNat
  (48 ≤ n && n ≤ 57) || (65 ≤ n && n ≤ 90) || (97 ≤ n && n ≤ 122) ||
    n == 45 || n == 95 || n == 46 || n == 126

/-- A hexadecimal digit in upper case. -/
def hexDigit (n : Nat) : Char := Char.ofNat (if n < 10 then 48 + n else 55 + n)

/-- A byte behind a percent sign. -/
def escapeByte (b : UInt8) : List Char := ['%', hexDigit (b.toNat / 16), hexDigit (b.toNat % 16)]

/-- A byte as itself or behind a percent sign. -/
def encodeByte (b : UInt8) : List Char := if isUnreserved b then [Char.ofNat b.toNat] else escapeByte b

/-- A text with all but the unreserved bytes escaped. -/
def encodeChars (s : String) : List Char := (Utf8.encode s).flatMap encodeByte

/-- A text with all but the unreserved bytes escaped. -/
def encode (s : String) : String := String.ofList (encodeChars s)

/-- The bytes that a text stands for: two hexadecimal digits behind a percent sign are a byte, and all else
is itself. -/
def decode : List Char → List UInt8
  | [] => []
  | '%' :: a :: b :: cs =>
    match Hex.value? a, Hex.value? b with
    | some x, some y => UInt8.ofNat (x * 16 + y) :: decode cs
    | _, _ => 37 :: decode (a :: b :: cs)
  | c :: cs => String.utf8EncodeChar c ++ decode cs

example : encode "a b/é" = "a%20b%2F%C3%A9" := by decide +kernel

end EventCourier.Percent
