import EventCourier.Json.Basic
import EventCourier.Number.Total
import EventCourier.Text.Hex

/-!
# Reading documents

A recursive reader over characters. A failure records how many bytes of the text lie behind the place at
which it is reported; `read` turns that into a line and a column, counted in bytes. `valueWith` reads one
value when a reader for the values inside it is given, so that `value` recurses on the number of containers
that may still be opened.

Doubles are read digit by digit into a 64-bit significand and then scaled by a rounded power of ten, which
is not always the nearest double to the written decimal.
-/

namespace EventCourier.Json.Reader

/-- What is wrong with a text. -/
inductive Fault where
  | endInList
  | endInObject
  | endInString
  | endInValue
  | expectedColon
  | expectedListCommaOrEnd
  | expectedObjectCommaOrEnd
  | expectedWord
  | expectedValue
  | invalidEscape
  | invalidNumber
  | numberOutOfRange
  | controlCharacter
  | keyNotString
  | loneSurrogate
  | unfinishedSurrogatePair
  | trailingComma
  | trailingCharacters
  | tooDeep
deriving DecidableEq, Repr

/-- The fault in words. -/
def Fault.message : Fault → String
  | .endInList => "EOF while parsing a list"
  | .endInObject => "EOF while parsing an object"
  | .endInString => "EOF while parsing a string"
  | .endInValue => "EOF while parsing a value"
  | .expectedColon => "expected `:`"
  | .expectedListCommaOrEnd => "expected `,` or `]`"
  | .expectedObjectCommaOrEnd => "expected `,` or `\x7d`"
  | .expectedWord => "expected ident"
  | .expectedValue => "expected value"
  | .invalidEscape => "invalid escape"
  | .invalidNumber => "invalid number"
  | .numberOutOfRange => "number out of range"
  | .controlCharacter => "control character (\\u0000-\\u001F) found while parsing a string"
  | .keyNotString => "key must be a string"
  | .loneSurrogate => "lone leading surrogate in hex escape"
  | .unfinishedSurrogatePair => "unexpected end of hex escape"
  | .trailingComma => "trailing comma"
  | .trailingCharacters => "trailing characters"
  | .tooDeep => "recursion limit exceeded"

/-- A fault and the number of bytes of the text behind the place where it is reported. -/
structure Failure where
  fault : Fault
  behind : Nat
deriving DecidableEq, Repr

/-- What is found at the start of a text, and the text behind it. -/
abbrev Found (α : Type) := α × List Char

/-- A reader of what stands at the start of a text. -/
abbrev ReaderOf (α : Type) := List Char → Except Failure (Found α)

/-- The number of bytes of a text. -/
def byteCount (cs : List Char) : Nat := total (cs.map Char.utf8Size)

/-- A fault reported in front of `rest`. -/
def failBefore {α : Type} (fault : Fault) (rest : List Char) : Except Failure α :=
  .error ⟨fault, byteCount rest⟩

/-- A fault reported at the next byte of `rest`, which counts as passed. -/
def failAt {α : Type} (fault : Fault) (rest : List Char) : Except Failure α :=
  .error ⟨fault, byteCount rest - 1⟩

/-- Blank, line feed, carriage return and tab separate tokens. -/
def isSpace (c : Char) : Bool := c = ' ' || c = '\n' || c = '\t' || c = '\r'

/-- Skips white space. -/
def skipSpace : List Char → List Char
  | [] => []
  | c :: cs => if isSpace c then skipSpace cs else c :: cs

/-- Reads the rest of one of the words `null`, `true` and `false`. -/
def word (result : Json) : List Char → ReaderOf Json
  | [], rest => .ok (result, rest)
  | _ :: _, [] => failBefore .endInValue []
  | w :: ws, c :: cs => if c = w then word result ws cs else failAt .expectedWord (c :: cs)

/-! ## Strings -/

/-- Reads four hexadecimal digits; a text that ends within four bytes is cut off, whatever it holds. -/
def hexEscape (rest : List Char) : Except Failure (Found Nat) :=
  if byteCount rest < 4 then .error ⟨.endInString, 0⟩
  else
    match rest with
    | a :: b :: c :: d :: cs =>
      match Hex.value? a, Hex.value? b, Hex.value? c, Hex.value? d with
      | some a, some b, some c, some d => .ok (((a * 16 + b) * 16 + c) * 16 + d, cs)
      | _, _, _, _ => .error ⟨.invalidEscape, byteCount rest - 4⟩
    | _ => .error ⟨.invalidEscape, byteCount rest - 4⟩

/-- Reads the second half of a surrogate pair whose first half was `first`. -/
def surrogatePair (first : Nat) : ReaderOf Char
  | [] => failBefore .endInString []
  | '\\' :: [] => failBefore .endInString []
  | '\\' :: 'u' :: rest => do
    let (second, rest) ← hexEscape rest
    if 0xDC00 ≤ second ∧ second ≤ 0xDFFF then
      return (Char.ofNat (0x10000 + (first - 0xD800) * 1024 + (second - 0xDC00)), rest)
    else failBefore .loneSurrogate rest
  | '\\' :: rest => failAt .unfinishedSurrogatePair rest
  | rest => failAt .unfinishedSurrogatePair rest

/-- Reads what follows `\u`: one unit, or two that make a surrogate pair. -/
def unicodeEscape (rest : List Char) : Except Failure (Found Char) := do
  let (unit, rest) ← hexEscape rest
  if 0xDC00 ≤ unit ∧ unit ≤ 0xDFFF then failBefore .loneSurrogate rest
  else if unit < 0xD800 ∨ 0xDBFF < unit then return (Char.ofNat unit, rest)
  else surrogatePair unit rest

/-- Reads what follows a backslash. -/
def escape : ReaderOf Char
  | [] => failBefore .endInString []
  | '"' :: rest => .ok ('"', rest)
  | '\\' :: rest => .ok ('\\', rest)
  | '/' :: rest => .ok ('/', rest)
  | 'b' :: rest => .ok ('\x08', rest)
  | 'f' :: rest => .ok ('\x0c', rest)
  | 'n' :: rest => .ok ('\n', rest)
  | 'r' :: rest => .ok ('\r', rest)
  | 't' :: rest => .ok ('\t', rest)
  | 'u' :: rest => unicodeEscape rest
  | rest => failAt .invalidEscape rest

/-- Reads up to the closing quote. The fuel is the number of characters left, of which every step takes one.
-/
def stringBody : Nat → ReaderOf (List Char)
  | 0, rest => failBefore .endInString rest
  | _ + 1, [] => failBefore .endInString []
  | fuel + 1, c :: rest =>
    if c = '"' then .ok ([], rest)
    else if c = '\\' then do
      let (d, rest) ← escape rest
      let (ds, rest) ← stringBody fuel rest
      return (d :: ds, rest)
    else if c.toNat < 0x20 then failBefore .controlCharacter rest
    else do
      let (ds, rest) ← stringBody fuel rest
      return (c :: ds, rest)

/-- Reads a string behind its opening quote. -/
def string (rest : List Char) : Except Failure (Found String) := do
  let (cs, rest) ← stringBody (rest.length + 1) rest
  return (String.ofList cs, rest)

/-! ## Numbers -/

/-- The value of a decimal digit. -/
def digit? (c : Char) : Option Nat :=
  if 48 ≤ c.toNat ∧ c.toNat ≤ 57 then some (c.toNat - 48) else none

/-- The digits at the start of a text, as long as appending them to `acc` keeps below `limit`; with their
count and the text behind them. -/
def digitsBelow (limit : Nat) : (acc count : Nat) → List Char → Nat × Nat × List Char
  | acc, count, [] => (acc, count, [])
  | acc, count, c :: rest =>
    match digit? c with
    | some d =>
      if acc * 10 + d < limit then digitsBelow limit (acc * 10 + d) (count + 1) rest
      else (acc, count, c :: rest)
    | none => (acc, count, c :: rest)

/-- Skips digits and counts them. -/
def skipDigits : Nat → List Char → Nat × List Char
  | count, [] => (count, [])
  | count, c :: rest => if (digit? c).isSome then skipDigits (count + 1) rest else (count, c :: rest)

/-- True if the text starts with a digit. -/
def startsWithDigit : List Char → Bool
  | c :: _ => (digit? c).isSome
  | [] => false

/-- Significands are below 2^64 and exponents below 2^31. -/
def significandLimit : Nat := 0x10000000000000000

/-- The limit of a written exponent. -/
def exponentLimit : Nat := 0x80000000

/-- The largest power of ten in one step of scaling. -/
def maxPower : Nat := 308

/-- Divides by the rounded power of ten, in steps of at most 10^308. The fuel bounds the steps: a double is
zero after three of them. -/
def divideByPower : Nat → Double → Nat → Double
  | 0, x, _ => x
  | fuel + 1, x, e =>
    if e ≤ maxPower then x.scale 1 (Double.roundToBits53 (Nat.pow 10 e))
    else if x.isZero then x
    else divideByPower fuel (x.scale 1 (Double.roundToBits53 (Nat.pow 10 maxPower))) (e - maxPower)

/-- `significand · 10^exponent`, rounded at each step: the significand, the power of ten and their product
or quotient. None stands for a product past the largest double. -/
def scaled? (significand : Nat) (exponent : Int) : Option Double :=
  let x := Double.ofInt significand
  if exponent < 0 then some (divideByPower 4 x exponent.natAbs)
  else if x.isZero then some x
  else if exponent ≤ maxPower then
    let product := x.scale (Double.roundToBits53 (Nat.pow 10 exponent.toNat)) 1
    if product.isFinite then some product else none
  else none

/-- The double of a sign, a significand and an exponent. -/
def real (negative : Bool) (significand : Nat) (exponent : Int)
    (rest : List Char) : Except Failure (Found Number) :=
  match scaled? significand exponent with
  | some x =>
    let signed := if negative then x.neg else x
    if h : signed.isFinite = true then .ok (.real signed h, rest) else failBefore .numberOutOfRange rest
  | none => failBefore .numberOutOfRange rest

/-- Reads an exponent behind its `e`. An exponent past the limit makes zero, or is out of range. -/
def exponent (negative : Bool) (significand : Nat) (start : Int)
    (rest : List Char) : Except Failure (Found Number) :=
  let (down, rest) := match rest with
    | '+' :: cs => (false, cs)
    | '-' :: cs => (true, cs)
    | cs => (false, cs)
  match rest with
  | [] => failBefore .endInValue []
  | c :: cs =>
    match digit? c with
    | none => failAt .invalidNumber (c :: cs)
    | some d =>
      let (e, _, rest) := digitsBelow exponentLimit d 1 cs
      if startsWithDigit rest then
        if significand ≠ 0 ∧ !down then failBefore .numberOutOfRange (rest.drop 1)
        else real negative 0 0 (skipDigits 0 rest).2
      else real negative significand (if down then start - e else start + e) rest

/-- Reads an exponent, if there is one. -/
def optionalExponent (negative : Bool) (significand : Nat) (start : Int) : ReaderOf Number
  | 'e' :: rest => exponent negative significand start rest
  | 'E' :: rest => exponent negative significand start rest
  | rest => real negative significand start rest

/-- Reads a fraction behind its point. Digits that no longer fit the significand are dropped. -/
def fraction (negative : Bool) (significand : Nat) (start : Int)
    (rest : List Char) : Except Failure (Found Number) :=
  let (significand', count, behind) := digitsBelow significandLimit significand 0 rest
  if startsWithDigit behind then
    optionalExponent negative significand' (start - count) (skipDigits 0 behind).2
  else if count = 0 then
    if behind.isEmpty then failAt .endInValue behind else failAt .invalidNumber behind
  else optionalExponent negative significand' (start - count) behind

/-- Reads fraction and exponent behind the digits of a number, which is a double if there are any. -/
def fractionOrExponent (negative : Bool) (significand : Nat) (start : Int) : ReaderOf Number
  | '.' :: rest => fraction negative significand start rest
  | rest => optionalExponent negative significand start rest

/-- An integer of 64 bits, or else the nearest double; negative zero is a double. -/
def wholeNumber (negative : Bool) (n : Nat) (rest : List Char) : Except Failure (Found Number) :=
  if negative then
    if h : n ≠ 0 ∧ n ≤ 0x8000000000000000 then .ok (.integer (-n) (by omega) (by omega), rest)
    else real true n 0 rest
  else if h : n < 0x10000000000000000 then .ok (.integer n (by omega) (by omega), rest)
  else real false n 0 rest

/-- Reads what follows the digits of the whole part. -/
def afterWhole (negative : Bool) (n : Nat) : ReaderOf Number
  | '.' :: rest => fraction negative n 0 rest
  | 'e' :: rest => exponent negative n 0 rest
  | 'E' :: rest => exponent negative n 0 rest
  | rest => wholeNumber negative n rest

/-- Reads a number behind its sign. Further digits of a whole part too long for the significand count into
the exponent. -/
def number (negative : Bool) : ReaderOf Number
  | [] => failBefore .endInValue []
  | c :: rest =>
    match digit? c with
    | none => failAt .invalidNumber (c :: rest)
    | some 0 => if startsWithDigit rest then failAt .invalidNumber rest else afterWhole negative 0 rest
    | some d =>
      let (n, _, behind) := digitsBelow significandLimit d 1 rest
      if startsWithDigit behind then
        let (extra, behind) := skipDigits 0 behind
        fractionOrExponent negative n extra behind
      else afterWhole negative n behind

/-! ## Values -/

/-- Reads the items of an array up to its bracket. The fuel bounds the number of items by the text left. -/
def items (value : ReaderOf Json) : Nat → Bool → ReaderOf (List Json)
  | 0, _, rest => failBefore .endInList rest
  | fuel + 1, first, rest => do
    let rest := skipSpace rest
    let next (rest : List Char) : Except Failure (Found (List Json)) := do
      let (item, rest) ← value rest
      let (more, rest) ← items value fuel false rest
      return (item :: more, rest)
    match rest with
    | [] => failAt .endInList []
    | ']' :: rest => return ([], rest)
    | c :: cs =>
      if first then next (c :: cs)
      else if c = ',' then
        match skipSpace cs with
        | [] => failAt .endInValue []
        | ']' :: cs => failAt .trailingComma (']' :: cs)
        | cs => next cs
      else failAt .expectedListCommaOrEnd (c :: cs)

/-- Reads a member behind the opening quote of its key. -/
def member (value : ReaderOf Json) (rest : List Char) : Except Failure (Found (String × Json)) := do
  let (key, rest) ← string rest
  match skipSpace rest with
  | [] => failAt .endInObject []
  | ':' :: rest =>
    let (v, rest) ← value rest
    return ((key, v), rest)
  | rest => failAt .expectedColon rest

/-- Reads the members of an object up to its brace, in the order of the text. -/
def members (value : ReaderOf Json) :
    Nat → Bool → ReaderOf (List (String × Json))
  | 0, _, rest => failBefore .endInObject rest
  | fuel + 1, first, rest => do
    let rest := skipSpace rest
    let next (rest : List Char) : Except Failure (Found (List (String × Json))) := do
      let (m, rest) ← member value rest
      let (more, rest) ← members value fuel false rest
      return (m :: more, rest)
    match rest with
    | [] => failAt .endInObject []
    | '\x7d' :: rest => return ([], rest)
    | c :: cs =>
      if first then
        if c = '"' then next cs else failAt .keyNotString (c :: cs)
      else if c = ',' then
        match skipSpace cs with
        | [] => failAt .endInValue []
        | '"' :: cs => next cs
        | '\x7d' :: cs => failAt .trailingComma ('\x7d' :: cs)
        | cs => failAt .keyNotString cs
      else failAt .expectedObjectCommaOrEnd (c :: cs)

/-- Reads one value; `nested?` reads the values inside it, if a container may be opened. -/
def valueWith (nested? : Option (ReaderOf Json)) (text : List Char) : Except Failure (Found Json) :=
  match skipSpace text with
  | [] => failAt .endInValue []
  | c :: rest =>
    if c = 'n' then word .null "ull".toList rest
    else if c = 't' then word (.bool true) "rue".toList rest
    else if c = 'f' then word (.bool false) "alse".toList rest
    else if c = '-' then do
      let (n, rest) ← number true rest
      return (.number n, rest)
    else if (digit? c).isSome then do
      let (n, rest) ← number false (c :: rest)
      return (.number n, rest)
    else if c = '"' then do
      let (s, rest) ← string rest
      return (.string s, rest)
    else if c = '[' then
      match nested? with
      | none => failAt .tooDeep (c :: rest)
      | some value => do
        let (xs, rest) ← items value (rest.length + 1) true rest
        return (.array xs, rest)
    else if c = '\x7b' then
      match nested? with
      | none => failAt .tooDeep (c :: rest)
      | some value => do
        let (ms, rest) ← members value (rest.length + 1) true rest
        return (.object (Dictionary.ofList ms), rest)
    else failAt .expectedValue (c :: rest)

/-- Reads one value in which at most `depth` containers are open at a time. -/
def value : Nat → ReaderOf Json
  | 0 => valueWith none
  | depth + 1 => valueWith (some (value depth))

/-- How deep containers may nest. -/
def maxDepth : Nat := 127

/-- Reads a whole text as one value. -/
def document (text : List Char) : Except Failure Json := do
  let (j, rest) ← value maxDepth text
  match skipSpace rest with
  | [] => return j
  | rest => failAt .trailingCharacters rest

/-! ## Places in the text -/

/-- A place in a text: its line, from 1, and the bytes since the last line feed. -/
structure Place where
  line : Nat
  column : Nat
deriving DecidableEq, Repr

/-- The place behind the first `count` bytes of a text, seen from `p`. -/
def Place.advance (p : Place) : Nat → List Char → Place
  | 0, _ => p
  | _, [] => p
  | count, c :: cs =>
    if c = '\n' then Place.advance ⟨p.line + 1, 0⟩ (count - 1) cs
    else Place.advance ⟨p.line, p.column + min count c.utf8Size⟩ (count - c.utf8Size) cs

/-- Why a text is not a document, and where. -/
structure ReadError where
  fault : Fault
  place : Place
deriving DecidableEq, Repr

/-- The error in words. -/
def ReadError.message (e : ReadError) : String :=
  s!"{e.fault.message} at line {toString e.place.line} column {toString e.place.column}"

/-- Reads a whole text as one document. -/
def read (text : List Char) : Except ReadError Json :=
  match document text with
  | .ok j => .ok j
  | .error f => .error ⟨f.fault, Place.advance ⟨1, 0⟩ (byteCount text - f.behind) text⟩

end EventCourier.Json.Reader
