import EventCourier.Dictionary
import EventCourier.Number.Shortest

/-!
# JSON documents

The document tree, with the members of an object kept as a dictionary, and its compact text. A number is an
integer of at most 64 bits, signed or unsigned, or a finite double.
-/

namespace EventCourier

/-- A number of a document. -/
inductive Number where
  | integer (n : Int) (lower : -0x8000000000000000 ≤ n) (upper : n < 0x10000000000000000)
  | real (x : Double) (finite : x.isFinite = true)
deriving DecidableEq

/-- A document. -/
inductive Json where
  | null
  | bool (b : Bool)
  | number (n : Number)
  | string (s : String)
  | array (items : List Json)
  | object (members : List (String × Json))

namespace Number

/-- Doubles in documents: positional from 10^-5 up to 10^15, a whole one with `.0`. -/
def realLayout : Layout where
  tie := .toEven
  positional e := decide (-5 ≤ e ∧ e ≤ 15)
  wholeSuffix := ['.', '0']
  nan := "null".toList
  infinity := "null".toList

/-- The digits of an integer. -/
def integerChars (n : Int) : List Char :=
  if n < 0 then '-' :: Nat.toDigits 10 n.natAbs else Nat.toDigits 10 n.natAbs

/-- The text of a number. -/
def chars : Number → List Char
  | .integer n _ _ => integerChars n
  | .real x _ => realLayout.chars x

/-- The number as a signed 64-bit integer, if it is one. -/
def toInt64? : Number → Option Int
  | .integer n _ _ => if n < 0x8000000000000000 then some n else none
  | .real _ _ => none

/-- The double nearest to the number. -/
def toDouble : Number → Double
  | .integer n _ _ => .ofInt n
  | .real x _ => x

example : realLayout.chars (.ofQuotient false 1 10) = "0.1".toList := by decide +kernel

example : realLayout.chars (.ofInt 9007199254740992) = "9007199254740992.0".toList := by decide +kernel

example : realLayout.chars (.ofQuotient false 1 10000000) = "1e-7".toList := by decide +kernel

/-- The least double above zero. -/
example : realLayout.chars ⟨1⟩ = "5e-324".toList := by decide +kernel

example : realLayout.chars ⟨0x8000000000000000⟩ = "-0.0".toList := by decide +kernel

end Number

namespace Json

/-- A hexadecimal digit in lower case. -/
def hexDigit (n : Nat) : Char := Nat.digitChar n

/-- A character inside a quoted text: quotes and backslashes behind a backslash, the short escapes, other
control characters by their number, all else as it is. -/
def escapeChar (c : Char) : List Char :=
  if c = '"' then ['\\', '"']
  else if c = '\\' then ['\\', '\\']
  else if c = '\n' then ['\\', 'n']
  else if c = '\r' then ['\\', 'r']
  else if c = '\t' then ['\\', 't']
  else if c = '\x08' then ['\\', 'b']
  else if c = '\x0c' then ['\\', 'f']
  else if c.toNat < 0x20 then ['\\', 'u', '0', '0', hexDigit (c.toNat / 16), hexDigit (c.toNat % 16)]
  else [c]

/-- A text in quotes. -/
def quote (s : String) : List Char := '"' :: s.toList.flatMap escapeChar ++ ['"']

mutual

/-- The compact text of a document. -/
def chars : Json → List Char
  | .null => "null".toList
  | .bool true => "true".toList
  | .bool false => "false".toList
  | .number n => n.chars
  | .string s => quote s
  | .array [] => "[]".toList
  | .array (item :: items) => '[' :: (chars item ++ itemsChars items)
  | .object [] => "\x7b\x7d".toList
  | .object ((key, value) :: members) => '\x7b' :: (quote key ++ ':' :: (chars value ++ membersChars members))

/-- The further items of an array, each behind a comma, up to the closing bracket. -/
def itemsChars : List Json → List Char
  | [] => [']']
  | item :: items => ',' :: (chars item ++ itemsChars items)

/-- The further members of an object, each behind a comma, up to the closing brace. -/
def membersChars : List (String × Json) → List Char
  | [] => ['\x7d']
  | (key, value) :: members => ',' :: (quote key ++ ':' :: (chars value ++ membersChars members))

end

/-- The compact text of a document. -/
def render (j : Json) : String := String.ofList j.chars

mutual

/-- Equality of documents. -/
def same : Json → Json → Bool
  | .null, .null => true
  | .bool a, .bool b => a == b
  | .number a, .number b => decide (a = b)
  | .string a, .string b => a == b
  | .array a, .array b => sameItems a b
  | .object a, .object b => sameMembers a b
  | _, _ => false

/-- Equality of the items of two arrays. -/
def sameItems : List Json → List Json → Bool
  | [], [] => true
  | a :: as, b :: bs => same a b && sameItems as bs
  | _, _ => false

/-- Equality of the members of two objects. -/
def sameMembers : List (String × Json) → List (String × Json) → Bool
  | [], [] => true
  | (k, a) :: as, (l, b) :: bs => k == l && same a b && sameMembers as bs
  | _, _ => false

end

end Json
end EventCourier
