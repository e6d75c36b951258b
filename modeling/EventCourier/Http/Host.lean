import EventCourier.Number.Total
import EventCourier.Text.Percent
import EventCourier.Text.Split

/-!
# Hosts

The host of a URL is an address of eight pieces in brackets, an address of four numbers, or a name. Addresses are
written in one way, however they were given. Names may be in any alphabet and are written in ASCII, which takes
tables of Unicode; how that is done is given (`NameReading`), and `asciiName` does it for names in ASCII.
-/

namespace EventCourier.Url

/-! ## Addresses of four numbers -/

/-- A number in a radix; no digits are zero. -/
def radixValue? (radix : Nat) (cs : List Char) : Option Nat :=
  cs.foldl (fun acc? c => do
    let acc ← acc?
    let d ← Hex.value? c
    if d < radix then some (acc * radix + d) else none) (some 0)

/-- A part of an address: hexadecimal behind `0x`, octal behind `0`, or decimal. -/
def addressPart? : List Char → Option Nat
  | [] => none
  | '0' :: 'x' :: cs | '0' :: 'X' :: cs => radixValue? 16 cs
  | '0' :: c :: cs => radixValue? 8 (c :: cs)
  | cs => radixValue? 10 cs

/-- The parts of a host between dots, without an empty one at the end. -/
def hostParts (host : List Char) : List (List Char) :=
  let parts := splitAtAll (· == '.') host
  if 1 < parts.length ∧ parts.getLast? = some [] then parts.dropLast else parts

/-- True of hosts that can only be addresses, since their last part is a number. -/
def endsInNumber (host : List Char) : Bool :=
  match (hostParts host).getLast? with
  | some part => (!part.isEmpty && part.all Char.isDigit) || (addressPart? part).isSome
  | none => false

/-- The address of four numbers or fewer; the last fills the places of those that are left out. -/
def address? (host : List Char) : Option String := do
  let parts ← (hostParts host).mapM addressPart?
  let last ← parts.getLast?
  let front := parts.dropLast
  if 4 < parts.length ∨ front.any (255 < ·) ∨ Nat.pow 256 (4 - front.length) ≤ last then none
  else
    let value := total (front.zipIdx.map fun (n, i) => n * Nat.pow 256 (3 - i)) + last
    return ".".intercalate ((List.range 4).map fun i => toString (value / Nat.pow 256 (3 - i) % 256))

/-! ## Addresses of eight pieces -/

/-- A piece: one to four hexadecimal digits. -/
def piece? (cs : List Char) : Option Nat :=
  if cs.isEmpty ∨ 4 < cs.length then none else radixValue? 16 cs

/-- A decimal number below 256, without zeros in front. -/
def octet? (cs : List Char) : Option Nat := do
  let n ← radixValue? 10 cs
  if cs = (toString n).toList ∧ n < 256 then some n else none

/-- Four decimal numbers between dots are two pieces. -/
def dottedPieces? (cs : List Char) : Option (List Nat) := do
  match ← (splitAtAll (· == '.') cs).mapM octet? with
  | [a, b, c, d] => some [a * 256 + b, c * 256 + d]
  | _ => none

/-- The pieces that parts stand for; where an address ends, it may end in four decimal numbers. -/
def pieces? (ends : Bool) : List (List Char) → Option (List Nat)
  | [] => some []
  | [part] => if ends ∧ '.' ∈ part then dottedPieces? part else (piece? part).map ([·])
  | part :: parts => do return (← piece? part) :: (← pieces? ends parts)

/-- What stands in front of the first two colons in a row, and what behind them, if there are any. -/
def splitGap : List Char → List Char × Option (List Char)
  | ':' :: ':' :: cs => ([], some cs)
  | c :: cs => (c :: (splitGap cs).1, (splitGap cs).2)
  | [] => ([], none)

/-- The parts between colons; there is none beside a gap without any. -/
def besideGap (cs : List Char) : List (List Char) := if cs.isEmpty then [] else splitAtAll (· == ':') cs

/-- The eight pieces of an address; two colons in a row stand for the zeros that are left out. -/
def eightPieces? (cs : List Char) : Option (List Nat) :=
  match splitGap cs with
  | (_, none) => do
    let pieces ← pieces? true (splitAtAll (· == ':') cs)
    if pieces.length = 8 then some pieces else none
  | (front, some back) => do
    let front ← pieces? false (besideGap front)
    let back ← pieces? true (besideGap back)
    if front.length + back.length < 8 then some (front ++ List.replicate (8 - front.length - back.length) 0 ++ back)
    else none

/-- How many zeros stand in a row from a place on. -/
def zerosFrom (pieces : List Nat) (i : Nat) : Nat := ((pieces.drop i).takeWhile (· = 0)).length

/-- Pieces between colons. -/
def pieceText (pieces : List Nat) : String :=
  ":".intercalate (pieces.map fun n => String.ofList (Nat.toDigits 16 n))

/-- An address with its longest row of zeros left out, the first of several, unless it is a single one. -/
def eightText (pieces : List Nat) : String :=
  let i := (List.range pieces.length).foldl (fun i j => if zerosFrom pieces i < zerosFrom pieces j then j else i) 0
  if zerosFrom pieces i < 2 then pieceText pieces
  else pieceText (pieces.take i) ++ "::" ++ pieceText (pieces.drop (i + zerosFrom pieces i))

example : (eightPieces? "::FFFF:1.2.3.4".toList).map eightText = some "::ffff:102:304" := by decide +kernel

example : (eightPieces? "1:0:0:2:0:0:0:0".toList).map eightText = some "1:0:0:2::" := by decide +kernel

/-! ## Names -/

/-- How the bytes of a name are written in ASCII, if they are the name of a host. -/
abbrev NameReading := List UInt8 → Option (List Char)

/-- True of the characters that no name in ASCII holds. -/
def isForbidden (c : Char) : Bool :=
  c.toNat ≤ 32 || 127 ≤ c.toNat ||
    ['#', '%', '/', ':', '<', '>', '?', '@', '[', '\\', ']', '^', '|'].contains c

/-- Names in ASCII are written in small letters. Labels that are encoded already are not looked into. -/
def asciiName : NameReading := fun bytes =>
  match Utf8.decode? bytes with
  | .error _ => none
  | .ok cs =>
    let cs := cs.map Char.toLower
    if cs.any isForbidden then none else some cs

/-! ## Reading -/

/-- The host that a text stands for. -/
def host? (names : NameReading) : List Char → Option String
  | [] => none
  | '[' :: cs =>
    if cs.getLast? = some ']' then (eightPieces? cs.dropLast).map fun pieces => "[" ++ eightText pieces ++ "]" else none
  | cs =>
    match names (Percent.decode cs) with
    | none => none
    | some name =>
      if name.isEmpty then none
      else if endsInNumber name then address? name
      else some (String.ofList name)

end EventCourier.Url
