import EventCourier.Text.CaseTable

/-!
# Lower case

The small letter of each capital one. A capital sigma at the end of a word becomes a final sigma, which
depends on the characters around it; every other character is mapped on its own.
-/

namespace EventCourier.LetterCase

/-- True if one of the ranges holds a code point. -/
def inRanges (ranges : List (Nat × Nat)) (n : Nat) : Bool :=
  ranges.any fun r => decide (r.1 ≤ n ∧ n ≤ r.2)

/-- True of letters with case. -/
def isCased (c : Char) : Bool := inRanges casedRanges c.toNat

/-- True of the characters passed over around a sigma. -/
def isIgnorable (c : Char) : Bool := inRanges ignorableRanges c.toNat

/-- True if a run holds a code point. -/
def Run.has (r : Run) (n : Nat) : Bool := decide (r.first ≤ n ∧ n ≤ r.last ∧ (n - r.first) % r.step = 0)

/-- The small letter of a code point. -/
def lowerCode (n : Nat) : Nat :=
  match runs.find? (·.has n) with
  | some r => r.small + (n - r.first)
  | none => n

/-- The small form of a character on its own: one character but for the dotted capital I, which keeps its
dot. -/
def lowerChar (c : Char) : List Char :=
  if c = '\u0130' then ['i', '\u0307'] else [Char.ofNat (lowerCode c.toNat)]

/-- True if a letter with case stands first, ignorable characters passed over. -/
def meetsCased (cs : List Char) : Bool :=
  match cs.dropWhile isIgnorable with
  | c :: _ => isCased c
  | [] => false

/-- The small sigma between what stands before it, nearest first, and behind it. -/
def smallSigma (before behind : List Char) : Char :=
  if meetsCased before && !meetsCased behind then '\u03c2' else '\u03c3'

/-- The small form of a text; `before` holds the characters in front of it, nearest first. -/
def lowerFrom (before : List Char) : List Char → List Char
  | [] => []
  | c :: cs => (if c = '\u03a3' then [smallSigma before cs] else lowerChar c) ++ lowerFrom (c :: before) cs

end EventCourier.LetterCase

namespace EventCourier

/-- A text in lower case. -/
def lower (s : String) : String := String.ofList (LetterCase.lowerFrom [] s.toList)

end EventCourier
