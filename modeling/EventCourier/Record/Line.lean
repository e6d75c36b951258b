import EventCourier.Record.Point

/-!
# Lines

What a line of the line protocol says, and a reader for texts of lines. Commas, equals signs and blanks separate
unless they stand behind a backslash; a backslash before anything else stands for itself. A measurement may hold
equals signs. Text fields are quoted, and a line ends at the first line break outside of quotes.
-/

namespace EventCourier

/-- The value of a field as a line shows it; a number that is not an integer is kept as its text. -/
inductive LineValue where
  | text (s : String)
  | integer (n : Int)
  | real (text : String)
  | bool (b : Bool)
deriving DecidableEq, Repr

/-- What one line says, with tags and fields in their order. -/
structure Line where
  measurement : String
  tags : List (String × String)
  fields : List (String × LineValue)
  timestamp : Int
deriving DecidableEq, Repr

/-- What a line shows of the value of a field. -/
def LineValue.ofField : FieldValue → LineValue
  | .text s => .text s
  | .integer n => .integer n
  | .real x => .real (String.ofList (Point.realLayout.chars x))
  | .bool b => .bool b

namespace Line

/-- What the line of a point is to say. -/
def ofPoint (p : Point) : Line :=
  ⟨p.measurement, p.tags, p.fields.map fun f => (f.1, .ofField f.2), p.timestamp⟩

/-- What is found at the start of a text, and the text behind it. -/
abbrev Found (α : Type) := Option (α × List Char)

/-! ## Names -/

/-- A measurement ends at a comma or a blank. -/
def endsMeasurement (c : Char) : Bool := c = ',' || c = ' '

/-- Tag keys, tag values and field keys end at a comma, an equals sign or a blank. -/
def endsName (c : Char) : Bool := c = ' ' || c = ',' || c = '='

/-- Reads up to a character that ends a name, or a line break. Behind a backslash such a character does not end
the name, and the backslash is dropped. -/
def scan (ends : Char → Bool) : List Char → List Char × List Char
  | [] => ([], [])
  | '\\' :: d :: cs =>
    if ends d then
      let (s, rest) := scan ends cs
      (d :: s, rest)
    else
      let (s, rest) := scan ends (d :: cs)
      ('\\' :: s, rest)
  | c :: cs =>
    if ends c || c = '\n' then ([], c :: cs)
    else
      let (s, rest) := scan ends cs
      (c :: s, rest)

/-- Reads a name, which must not be empty. -/
def name (ends : Char → Bool) (cs : List Char) : Found String :=
  match scan ends cs with
  | ([], _) => none
  | (s, rest) => some (String.ofList s, rest)

/-! ## Values of fields -/

/-- Reads the rest of a quoted text. Quotes and backslashes may stand behind a backslash. -/
def quoted : List Char → Found (List Char)
  | [] => none
  | '"' :: cs => some ([], cs)
  | '\\' :: '"' :: cs => (quoted cs).map fun (s, rest) => ('"' :: s, rest)
  | '\\' :: '\\' :: cs => (quoted cs).map fun (s, rest) => ('\\' :: s, rest)
  | c :: cs => (quoted cs).map fun (s, rest) => (c :: s, rest)

/-- True of what may stand in a value that is not quoted. -/
def inWord (c : Char) : Bool := c ≠ ',' && c ≠ ' ' && c ≠ '\n'

/-- The number that decimal digits write. -/
def digits? (ds : List Char) : Option Nat :=
  if ds ≠ [] ∧ ds.all Char.isDigit then some (Nat.ofDigitChars 10 ds 0) else none

/-- The integer that a text writes, with a minus or without a sign. -/
def signed? : List Char → Option Int
  | '-' :: ds => (digits? ds).map fun (n : Nat) => -(n : Int)
  | ds => (digits? ds).map fun (n : Nat) => (n : Int)

/-- The signed 64-bit integer that a text writes. -/
def integer? (cs : List Char) : Option Int :=
  (signed? cs).filter fun n => decide (-0x8000000000000000 ≤ n ∧ n < 0x8000000000000000)

/-- The value that a word stands for: an integer has an `i` behind it, and what is neither an integer nor a truth
value is a number. -/
def wordValue? (w : List Char) : Option LineValue :=
  if w = [] then none
  else if w ∈ ["t", "T", "true", "True", "TRUE"].map String.toList then some (.bool true)
  else if w ∈ ["f", "F", "false", "False", "FALSE"].map String.toList then some (.bool false)
  else if w.getLast? = some 'i' then (integer? w.dropLast).map .integer
  else some (.real (String.ofList w))

/-- Reads the value of a field. -/
def fieldValue : List Char → Found LineValue
  | '"' :: cs => (quoted cs).map fun (s, rest) => (.text (String.ofList s), rest)
  | cs => (wordValue? (cs.takeWhile inWord)).map (·, cs.dropWhile inWord)

/-! ## Lines -/

variable {α : Type}

/-- Reads a key, an equals sign and a value. -/
def pair (value : List Char → Found α) (cs : List Char) : Found (String × α) :=
  match name endsName cs with
  | some (key, '=' :: rest) => (value rest).map fun (a, rest) => ((key, a), rest)
  | _ => none

/-- Reads at most a number of further pairs, each behind a comma. -/
def pairs (value : List Char → Found α) : Nat → List Char → Found (List (String × α))
  | n + 1, ',' :: cs =>
    match pair value cs with
    | some (p, rest) => (pairs value n rest).map fun (ps, rest) => (p :: ps, rest)
    | none => none
  | _, cs => some ([], cs)

/-- Reads measurement and tags, a blank, fields, a blank and the time, up to a line break. There are fewer tags
and fields than characters. -/
def line (cs : List Char) : Option (Line × List Char) := do
  let (measurement, cs) ← name endsMeasurement cs
  let (tags, cs) ← pairs (name endsName) cs.length cs
  let ' ' :: cs := cs | none
  let (field, cs) ← pair fieldValue cs
  let (fields, cs) ← pairs fieldValue cs.length cs
  let ' ' :: cs := cs | none
  let timestamp ← integer? (cs.takeWhile (· ≠ '\n'))
  return (⟨measurement, tags, field :: fields, timestamp⟩, cs.dropWhile (· ≠ '\n'))

/-- Reads at most a number of lines, between which there are line breaks. -/
def linesUpTo : Nat → List Char → Option (List Line)
  | 0, _ => none
  | n + 1, cs =>
    match line cs with
    | some (l, []) => some [l]
    | some (l, '\n' :: rest) => (linesUpTo n rest).map (l :: ·)
    | _ => none

/-- Reads the lines of a text, which are fewer than its characters. -/
def read (text : String) : Option (List Line) := linesUpTo text.length text.toList

example : read "m\\ s,k\\==a\\,b f=1i 7\nm= f=\"\n\",g=t,h=0.5 -1" = some
    [⟨"m s", [("k=", "a,b")], [("f", .integer 1)], 7⟩,
      ⟨"m=", [], [("f", .text "\n"), ("g", .bool true), ("h", .real "0.5")], -1⟩] := by
  decide +kernel

end Line
end EventCourier
