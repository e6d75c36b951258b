import EventCourier.Text.Lower
import EventCourier.Text.Utf8

/-!
# Sample data

Names for tests that share a broker: different tests get different names, and a test gets the same names
whenever it runs. The seed of a test is the SipHash-1-3 of its name with a zero key.
-/

namespace EventCourier

namespace SipHash

/-- The four words of the state. -/
structure State where
  v0 : UInt64
  v1 : UInt64
  v2 : UInt64
  v3 : UInt64

/-- The bits of a word moved to the left, those that fall out coming in at the right. -/
def rotate (x : UInt64) (n : UInt64) : UInt64 := (x <<< n) ||| (x >>> (64 - n))

/-- One round of mixing. -/
def State.mix (s : State) : State :=
  let v0 := s.v0 + s.v1
  let v2 := s.v2 + s.v3
  let v1 := rotate s.v1 13 ^^^ v0
  let v3 := rotate s.v3 16 ^^^ v2
  let v0 := rotate v0 32
  let v2 := v2 + v1
  let v0 := v0 + v3
  let v1 := rotate v1 17 ^^^ v2
  let v3 := rotate v3 21 ^^^ v0
  ⟨v0, v1, rotate v2 32, v3⟩

/-- Takes in one word. -/
def State.absorb (s : State) (word : UInt64) : State :=
  let s := { s with v3 := s.v3 ^^^ word }.mix
  { s with v0 := s.v0 ^^^ word }

/-- The word of up to eight bytes, the first one lowest. -/
def wordOf (bytes : List UInt8) : UInt64 := bytes.foldr (fun b w => (w <<< 8) ||| b.toUInt64) 0

/-- The bytes in words of eight, and the bytes left over. -/
def words : List UInt8 → List UInt64 × List UInt8
  | a :: b :: c :: d :: e :: f :: g :: h :: rest =>
    let (ws, tail) := words rest
    (wordOf [a, b, c, d, e, f, g, h] :: ws, tail)
  | tail => ([], tail)

/-- The state of the zero key. -/
def start : State := ⟨0x736f6d6570736575, 0x646f72616e646f6d, 0x6c7967656e657261, 0x7465646279746573⟩

/-- The hash of a byte sequence: one round per word and three at the end. -/
def hash (bytes : List UInt8) : UInt64 :=
  let (ws, tail) := words bytes
  let last := wordOf tail ||| (UInt64.ofNat (bytes.length % 256) <<< 56)
  let s := (ws ++ [last]).foldl State.absorb start
  let s := { s with v2 := s.v2 ^^^ 0xff }.mix.mix.mix
  s.v0 ^^^ s.v1 ^^^ s.v2 ^^^ s.v3

end SipHash

/-- A source of names with a seed. -/
structure SampleData where
  seed : Nat
deriving DecidableEq, Repr

namespace SampleData

/-- The source of a test by its name; a byte behind the name marks its end. -/
def ofTest (name : String) : SampleData := ⟨(SipHash.hash (Utf8.encode name ++ [0xff])).toNat⟩

/-- An entity that topic resolution leaves as it is. -/
def entity (d : SampleData) (base : String) : String := lower base ++ toString (d.seed % 1000000)

/-- A name between a first and a last part. -/
def name (d : SampleData) (first last : String) : String := s!"test-{first}-{toString d.seed}-{last}"

end SampleData
end EventCourier
