import EventCourier.Instant.Calendar

/-!
# Instants

An instant is a count of seconds from the start of 1970 and the nanoseconds past it. In a leap second the
count stays at the second before, and the nanoseconds run on to two thousand million.
-/

namespace EventCourier

/-- A point of time with nanosecond precision. -/
structure Instant where
  seconds : Int
  nanos : Nat
deriving DecidableEq, Repr

/-- Date and time of day as a clock shows them; `second` may be 60. -/
structure ClockTime where
  date : Calendar.Date
  hour : Nat
  minute : Nat
  second : Nat
  nanos : Nat
deriving DecidableEq, Repr

/-- The nanoseconds of a second. -/
def nanosPerSecond : Nat := 1000000000

/-- The instant at which a clock shows a time, when it is `offset` seconds ahead of universal time. -/
def ClockTime.toInstant (t : ClockTime) (offset : Int) : Instant :=
  let leap := t.second = 60
  let second := if leap then 59 else t.second
  ⟨(t.date.dayNumber - Calendar.epochDay) * 86400 + (t.hour * 3600 + t.minute * 60 + second : Nat) - offset,
    if leap then t.nanos + nanosPerSecond else t.nanos⟩

namespace Instant

/-- What a clock at universal time shows. -/
def toClockTime (t : Instant) : ClockTime :=
  let ofDay := (t.seconds % 86400).toNat
  let leap := nanosPerSecond ≤ t.nanos
  { date := .ofDayNumber (t.seconds / 86400 + Calendar.epochDay)
    hour := ofDay / 3600
    minute := ofDay / 60 % 60
    second := if leap then ofDay % 60 + 1 else ofDay % 60
    nanos := if leap then t.nanos - nanosPerSecond else t.nanos }

/-- The nanoseconds from the start of 1970, which need not fit 64 bits. -/
def unixNanos (t : Instant) : Int := t.seconds * nanosPerSecond + t.nanos

/-- The nanoseconds from the start of 1970 as a signed 64-bit number. -/
def unixNanos? (t : Instant) : Option Int :=
  if -0x8000000000000000 ≤ t.unixNanos ∧ t.unixNanos < 0x8000000000000000 then some t.unixNanos else none

/-! ## Text -/

/-- A number with zeros in front up to a width. -/
def padded (width n : Nat) : List Char :=
  let ds := Nat.toDigits 10 n
  List.replicate (width - ds.length) '0' ++ ds

/-- Years from 0 to 9999 have four digits, the others also a sign. -/
def yearChars (year : Int) : List Char :=
  if 0 ≤ year ∧ year ≤ 9999 then padded 4 year.toNat
  else (if year < 0 then '-' else '+') :: padded 4 year.natAbs

/-- A fraction of a second with no, three, six or nine digits, as few as hold it. -/
def fractionChars (nanos : Nat) : List Char :=
  if nanos = 0 then []
  else if nanos % 1000000 = 0 then '.' :: padded 3 (nanos / 1000000)
  else if nanos % 1000 = 0 then '.' :: padded 6 (nanos / 1000)
  else '.' :: padded 9 nanos

/-- Date and time without a mark for the zone. -/
def clockChars (t : ClockTime) : List Char :=
  yearChars t.date.year ++ '-' :: padded 2 t.date.month ++ '-' :: padded 2 t.date.day ++ 'T' :: padded 2 t.hour ++
    ':' :: padded 2 t.minute ++ ':' :: padded 2 t.second ++ fractionChars t.nanos

/-- The instant as RFC 3339 writes it, with the offset `+00:00`. -/
def rfc3339 (t : Instant) : String := String.ofList (clockChars t.toClockTime ++ "+00:00".toList)

/-- The instant as RFC 3339 writes it, with the zone `Z`. -/
def rfc3339Zulu (t : Instant) : String := String.ofList (clockChars t.toClockTime ++ ['Z'])

example : rfc3339 ⟨0, 1500000⟩ = "1970-01-01T00:00:00.001500+00:00" := by decide +kernel

/-- A leap second. -/
example : rfc3339Zulu ⟨59, 1000000000⟩ = "1970-01-01T00:00:60Z" := by decide +kernel

example : rfc3339Zulu ⟨253402300800, 0⟩ = "+10000-01-01T00:00:00Z" := by decide +kernel

end Instant
end EventCourier
