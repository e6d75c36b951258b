import EventCourier.Delivery

/-!
# Points

A point of a time series and its line in the line protocol. Commas, blanks and equals signs in names are
written behind a backslash; backslashes in names stand for themselves. Text fields are quoted, with quotes
and backslashes behind a backslash.
-/

namespace EventCourier

/-- The value of a field. -/
inductive FieldValue where
  | text (s : String)
  | integer (n : Int)
  | real (x : Double)
  | bool (b : Bool)
deriving DecidableEq, Repr

/-- A point: tags and fields by key, and the nanoseconds since the start of 1970. -/
structure Point where
  measurement : String
  tags : Dictionary String
  fields : Dictionary FieldValue
  timestamp : Int
deriving DecidableEq, Repr

namespace Point

/-- A point without tags and fields. -/
def empty (measurement : String) (timestamp : Int) : Point := ⟨measurement, [], [], timestamp⟩

/-- A point at an instant, which must lie in the range of signed 64-bit nanoseconds. -/
def at? (measurement : String) (t : Instant) : Except SinkError Point :=
  match t.unixNanos? with
  | some n => .ok (empty measurement n)
  | none => .error (.mapping s!"timestamp {t.rfc3339} is outside the nanosecond range")

/-- Sets a tag. -/
def tag (p : Point) (key value : String) : Point := { p with tags := p.tags.insert key value }

/-- Sets a field. -/
def field (p : Point) (key : String) (value : FieldValue) : Point :=
  { p with fields := p.fields.insert key value }

/-! ## Lines -/

/-- A backslash in front of the characters that `special` names. -/
def escape (special : Char → Bool) (s : String) : List Char :=
  s.toList.flatMap fun c => if special c then ['\\', c] else [c]

/-- A measurement ends at a comma or a blank. -/
def measurementChars (s : String) : List Char := escape (fun c => c = ',' || c = ' ') s

/-- Tag keys, tag values and field keys end at a comma, an equals sign or a blank. -/
def nameChars (s : String) : List Char := escape (fun c => c = ' ' || c = ',' || c = '=') s

/-- A text field ends at a quote. -/
def textChars (s : String) : List Char := '"' :: escape (fun c => c = '\\' || c = '"') s ++ ['"']

/-- Doubles in lines are always positional, and a whole one has no point. -/
def realLayout : Layout where
  tie := .up
  positional _ := true
  wholeSuffix := []
  nan := "NaN".toList
  infinity := "inf".toList

/-- The text of a field value. -/
def valueChars : FieldValue → List Char
  | .text s => textChars s
  | .integer n => Number.integerChars n ++ ['i']
  | .real x => realLayout.chars x
  | .bool b => if b then "true".toList else "false".toList

/-- A tag with the comma before it. -/
def tagChars (t : String × String) : List Char := ',' :: nameChars t.1 ++ '=' :: nameChars t.2

/-- A field. -/
def fieldChars (f : String × FieldValue) : List Char := nameChars f.1 ++ '=' :: valueChars f.2

/-- The line of a point: measurement and tags, fields, and the time. -/
def lineChars (p : Point) : List Char :=
  measurementChars p.measurement ++ p.tags.flatMap tagChars ++ ' ' ::
    [','].intercalate (p.fields.map fieldChars) ++ ' ' :: Number.integerChars p.timestamp

/-- The line of a point. -/
def line (p : Point) : String := String.ofList p.lineChars

/-- The lines of several points. -/
def lines (ps : List Point) : String := String.ofList (['\n'].intercalate (ps.map lineChars))

example : realLayout.chars ⟨0x8000000000000000⟩ = "-0".toList := by decide +kernel

example : realLayout.chars (.ofInt 10000000000000000000000) = "10000000000000000000000".toList := by
  decide +kernel

example : (((empty "m s" 7).tag "k=" "a,b").field "f" (.integer 1)).line = "m\\ s,k\\==a\\,b f=1i 7" := by
  decide +kernel

end Point
end EventCourier
