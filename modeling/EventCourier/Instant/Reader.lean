import EventCourier.Instant.Basic
import EventCourier.Text.Blank

/-!
# Reading instants

Two forms are read: RFC 3339 with an offset, and date and time without one, taken as universal time.
`readRfc3339?` is strict about widths; `readLocal` lets numbers be short, signed years be long, and white
space stand in front of numbers, and names the first fault. `read` tries the first and reports the fault of
the second.
-/

namespace EventCourier.Instant

/-- What is wrong with the text of a time. -/
inductive Fault where
  | invalidCharacters
  | prematureEnd
  | trailingInput
  | outOfRange
deriving DecidableEq, Repr

/-- The fault in words. -/
def Fault.message : Fault → String
  | .invalidCharacters => "input contains invalid characters"
  | .prematureEnd => "premature end of input"
  | .trailingInput => "trailing input"
  | .outOfRange => "input is out of range"

/-! ## Parts -/

/-- The value of a list of decimal digits. -/
def digitsValue (ds : List Char) : Nat := ds.foldl (fun n c => n * 10 + (c.toNat - 48)) 0

/-- Reads at least `least` and at most `most` digits as a number below 2^63. -/
def number (least most : Nat) (cs : List Char) : Except Fault (Nat × List Char) :=
  let ds := (cs.take most).takeWhile Char.isDigit
  if cs.length < least then .error .prematureEnd
  else if ds.length < least then .error .invalidCharacters
  else if 0x8000000000000000 ≤ digitsValue ds then .error .outOfRange
  else .ok (digitsValue ds, cs.drop ds.length)

/-- Reads a given character. -/
def literal (c : Char) : List Char → Except Fault (List Char)
  | [] => .error .prematureEnd
  | d :: cs => if d = c then .ok cs else .error .invalidCharacters

/-- Checks that a number lies within bounds. -/
def within (low high n : Nat) : Except Fault Unit :=
  if low ≤ n ∧ n ≤ high then .ok () else .error .outOfRange

/-- Reads a fraction of a second behind its point, in nanoseconds. Digits past the ninth are skipped. -/
def fraction (cs : List Char) : Except Fault (Nat × List Char) := do
  let (n, rest) ← number 1 9 cs
  return (n * Nat.pow 10 (9 - (cs.length - rest.length)), rest.dropWhile Char.isDigit)

/-- Reads a fraction of a second, if there is one. -/
def optionalFraction : List Char → Except Fault (Nat × List Char)
  | '.' :: cs => fraction cs
  | cs => .ok (0, cs)

/-- A time whose date the calendar has. -/
def validated (t : ClockTime) : Except Fault ClockTime := if t.date.exists then .ok t else .error .outOfRange

/-! ## RFC 3339 -/

/-- Reads a number of exactly `width` digits within bounds. -/
def exactly (width low high : Nat) (cs : List Char) : Except Fault (Nat × List Char) := do
  let (n, cs) ← number width width cs
  within low high n
  return (n, cs)

/-- Reads a signed offset of hours and minutes behind its sign, in seconds. -/
def offsetDigits (cs : List Char) : Except Fault (Int × List Char) := do
  let (hours, cs) ← exactly 2 0 23 cs
  let cs ← literal ':' cs
  let (minutes, cs) ← exactly 2 0 59 cs
  return (((hours * 60 + minutes) * 60 : Nat), cs)

/-- Reads the zone: `Z` or a signed offset; the minus may be U+2212. -/
def zone : List Char → Except Fault (Int × List Char)
  | 'Z' :: cs => .ok (0, cs)
  | 'z' :: cs => .ok (0, cs)
  | '+' :: cs => offsetDigits cs
  | '-' :: cs => do
    let (offset, cs) ← offsetDigits cs
    return (-offset, cs)
  | '\u2212' :: cs => do
    let (offset, cs) ← offsetDigits cs
    return (-offset, cs)
  | _ => .error .invalidCharacters

/-- Reads the mark between date and time: `T` of either case, or a blank. -/
def dateTimeMark : List Char → Except Fault (List Char)
  | 'T' :: cs => .ok cs
  | 't' :: cs => .ok cs
  | ' ' :: cs => .ok cs
  | _ => .error .invalidCharacters

/-- Reads date, time and zone as RFC 3339 writes them. -/
def readRfc3339 (cs : List Char) : Except Fault Instant := do
  let (year, cs) ← exactly 4 0 9999 cs
  let cs ← literal '-' cs
  let (month, cs) ← exactly 2 1 12 cs
  let cs ← literal '-' cs
  let (day, cs) ← exactly 2 1 31 cs
  let cs ← dateTimeMark cs
  let (hour, cs) ← exactly 2 0 23 cs
  let cs ← literal ':' cs
  let (minute, cs) ← exactly 2 0 59 cs
  let cs ← literal ':' cs
  let (second, cs) ← exactly 2 0 60 cs
  let (nanos, cs) ← optionalFraction cs
  let (offset, cs) ← zone cs
  if cs.isEmpty then
    let t ← validated ⟨⟨year, month, day⟩, hour, minute, second, nanos⟩
    return t.toInstant offset
  else .error .trailingInput

/-! ## Date and time without a zone -/

/-- Reads a number of one or two digits within bounds, behind white space. -/
def short (low high : Nat) (cs : List Char) : Except Fault (Nat × List Char) := do
  let (n, cs) ← number 1 2 (trimStart cs)
  within low high n
  return (n, cs)

/-- Reads a year behind white space: up to four digits, or any number of them behind a sign. -/
def readYear (cs : List Char) : Except Fault (Int × List Char) := do
  let (year, cs) ← match trimStart cs with
    | '-' :: cs => do
      let (n, cs) ← number 1 cs.length cs
      pure (-(n : Int), cs)
    | '+' :: cs => do
      let (n, cs) ← number 1 cs.length cs
      pure ((n : Int), cs)
    | cs => do
      let (n, cs) ← number 1 4 cs
      pure ((n : Int), cs)
  if -0x80000000 ≤ year ∧ year < 0x80000000 then return (year, cs) else .error .outOfRange

/-- Reads date and time as at universal time. -/
def readLocal (cs : List Char) : Except Fault Instant := do
  let (year, cs) ← readYear cs
  let cs ← literal '-' cs
  let (month, cs) ← short 1 12 cs
  let cs ← literal '-' cs
  let (day, cs) ← short 1 31 cs
  let cs ← literal 'T' cs
  let (hour, cs) ← short 0 23 cs
  let cs ← literal ':' cs
  let (minute, cs) ← short 0 59 cs
  let cs ← literal ':' cs
  let (second, cs) ← short 0 60 cs
  let (nanos, cs) ← optionalFraction cs
  if cs.isEmpty then
    let t ← validated ⟨⟨year, month, day⟩, hour, minute, second, nanos⟩
    return t.toInstant 0
  else .error .trailingInput

/-- Reads an instant in either form; the fault reported is that of the form without a zone. -/
def read (s : String) : Except Fault Instant :=
  match readRfc3339 s.toList with
  | .ok t => .ok t
  | .error _ => readLocal s.toList

example : read "2024-02-29T12:00:00" = read "2024-02-29T14:00:00+02:00" := by cbv

example : read "2023-02-29T12:00:00" = .error .outOfRange := by cbv

end EventCourier.Instant
