/-!
# UTF-8

`chunks` cuts a byte sequence into characters and into the maximal pieces that no character starts with, as
the Unicode standard recommends for replacement. The two readers are views of the same cut: `decode?` names
the first fault, `lossy` writes U+FFFD for each.
-/

namespace EventCourier.Utf8

/-- A piece of a byte sequence: a character, bytes that begin no character, or a character cut off by the
end. -/
inductive Chunk where
  | char (c : Char)
  | malformed (width : Nat)
  | truncated
deriving DecidableEq, Repr

/-- A character of which some bytes are still owed: how many, the range of the next one, the bits and the
number of the bytes read so far. -/
structure Pending where
  owed : Nat
  low : UInt8
  high : UInt8
  bits : Nat
  taken : Nat
deriving DecidableEq, Repr

/-- What a byte at the start of a character says: a whole character, the start of a longer one, or nothing.
-/
inductive Lead where
  | whole (c : Char)
  | start (p : Pending)
  | invalid

/-- The range of the second byte shuts out overlong forms, surrogates and values past U+10FFFF. -/
def lead (b : UInt8) : Lead :=
  let n := b.toNat
  if n < 0x80 then .whole (Char.ofNat n)
  else if n < 0xC2 then .invalid
  else if n < 0xE0 then .start ⟨1, 0x80, 0xBF, n - 0xC0, 1⟩
  else if n < 0xF0 then
    .start ⟨2, if n = 0xE0 then 0xA0 else 0x80, if n = 0xED then 0x9F else 0xBF, n - 0xE0, 1⟩
  else if n < 0xF5 then
    .start ⟨3, if n = 0xF0 then 0x90 else 0x80, if n = 0xF4 then 0x8F else 0xBF, n - 0xF0, 1⟩
  else .invalid

/-- A continuation byte within the expected range, put to the bits read so far. -/
def Pending.feed (p : Pending) (b : UInt8) : Option Lead :=
  if p.low ≤ b ∧ b ≤ p.high then
    let bits := p.bits * 64 + (b.toNat - 0x80)
    some (if p.owed ≤ 1 then .whole (Char.ofNat bits)
      else .start ⟨p.owed - 1, 0x80, 0xBF, bits, p.taken + 1⟩)
  else none

/-- The pieces of a byte sequence, given the character that is still open. A byte that does not continue the
open character closes it as malformed and is looked at afresh. -/
def chunksFrom : Option Pending → List UInt8 → List Chunk
  | none, [] => []
  | some _, [] => [.truncated]
  | open?, b :: bs =>
    match open?.bind (·.feed b) with
    | some (.whole c) => .char c :: chunksFrom none bs
    | some (.start p) => chunksFrom (some p) bs
    | _ =>
      let closed := match open? with
        | some p => [.malformed p.taken]
        | none => []
      closed ++ match lead b with
        | .whole c => .char c :: chunksFrom none bs
        | .start p => chunksFrom (some p) bs
        | .invalid => .malformed 1 :: chunksFrom none bs

/-- The pieces of a byte sequence, in order. -/
def chunks (bs : List UInt8) : List Chunk := chunksFrom none bs

/-- Why bytes are not UTF-8, with the index of the first byte at fault. -/
inductive Fault where
  | malformed (width index : Nat)
  | truncated (index : Nat)
deriving DecidableEq, Repr

/-- The fault in words. -/
def Fault.message : Fault → String
  | .malformed width index =>
    s!"invalid utf-8 sequence of {toString width} bytes from index {toString index}"
  | .truncated index => s!"incomplete utf-8 byte sequence from index {toString index}"

/-- The characters of a cut without faults; `index` counts the bytes before it. -/
def collect : Nat → List Chunk → Except Fault (List Char)
  | _, [] => .ok []
  | index, .char c :: rest => (c :: ·) <$> collect (index + c.utf8Size) rest
  | index, .malformed width :: _ => .error (.malformed width index)
  | index, .truncated :: _ => .error (.truncated index)

/-- The text of a byte sequence, or the first fault. -/
def decode? (bs : List UInt8) : Except Fault (List Char) := collect 0 (chunks bs)

/-- The character that stands for a piece, U+FFFD for a faulty one. -/
def Chunk.shown : Chunk → Char
  | .char c => c
  | _ => '\ufffd'

/-- The text of a byte sequence, each fault replaced. -/
def lossy (bs : List UInt8) : String := String.ofList ((chunks bs).map Chunk.shown)

/-- The text of a byte sequence without faults. -/
def text? (bs : List UInt8) : Option String :=
  match decode? bs with
  | .ok cs => some (String.ofList cs)
  | .error _ => none

/-- The bytes of a text. -/
def encode (s : String) : List UInt8 := s.toList.flatMap String.utf8EncodeChar

end EventCourier.Utf8
