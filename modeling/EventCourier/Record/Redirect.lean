import EventCourier.Record.Point

/-!
# Redirects

A short link being followed. `ofPayload` takes the five members it needs, in a fixed order, and names the
first that does not fit; all others are ignored. What it accepts can be written as a point: tags are not
empty, hold no line breaks and do not end in a backslash, and the time fits 64 bits of nanoseconds.
-/

namespace EventCourier

/-- A short link being followed, with its latency in milliseconds. -/
structure Redirect where
  id : String
  target : String
  short : String
  latency : Int
  timestamp : Instant
deriving DecidableEq, Repr

namespace Redirect

/-- Why a payload is no redirect. -/
inductive Fault where
  | missing (field : String)
  | notString (field found : String)
  | empty (field : String)
  | lineBreak (field : String)
  | trailingBackslash (field : String)
  | notInteger (field found : String)
  | invalidTime (text : String) (fault : Instant.Fault)
  | timeOutOfRange (t : Instant)
deriving DecidableEq, Repr

/-- The fault in words. -/
def Fault.message : Fault → String
  | .missing field => s!"missing field '{field}'"
  | .notString field found => s!"field '{field}' must be a string, got {found}"
  | .empty field => s!"field '{field}' must not be empty"
  | .lineBreak field => s!"field '{field}' must not contain line breaks"
  | .trailingBackslash field => s!"field '{field}' must not end with a backslash"
  | .notInteger field found => s!"field '{field}' must be an integer, got {found}"
  | .invalidTime text fault => s!"invalid timestamp '{text}': {fault.message}"
  | .timeOutOfRange t => s!"field 'timestamp' is outside the nanosecond range, got {t.rfc3339}"

/-- A member that must be there; null counts as missing. -/
def required (p : Payload) (field : String) : Except Fault Payload :=
  match p.get? field with
  | some value => if value.isNull then .error (.missing field) else .ok value
  | none => .error (.missing field)

/-- A member that must be a string. -/
def requiredString (p : Payload) (field : String) : Except Fault String := do
  let value ← required p field
  match value.asString? with
  | some s => return s
  | none => .error (.notString field value.typeName)

/-- A member that must be a string fit for a tag. -/
def requiredTag (p : Payload) (field : String) : Except Fault String := do
  let s ← requiredString p field
  if s.isEmpty then .error (.empty field)
  else if s.toList.any (fun c => c = '\n' || c = '\r') then .error (.lineBreak field)
  else if s.toList.getLast? = some '\\' then .error (.trailingBackslash field)
  else return s

/-- A member that must be a signed 64-bit integer. -/
def requiredInteger (p : Payload) (field : String) : Except Fault Int := do
  let value ← required p field
  match value.asInt64? with
  | some n => return n
  | none => .error (.notInteger field value.typeName)

/-- Reads a time; without a zone it is taken as universal time. -/
def readTime (s : String) : Except Fault Instant :=
  match Instant.read s with
  | .ok t => .ok t
  | .error fault => .error (.invalidTime s fault)

/-- The redirect that a payload describes. -/
def ofPayload (p : Payload) : Except Fault Redirect := do
  let id ← requiredTag p "id"
  let target ← requiredTag p "original"
  let short ← requiredTag p "shortened"
  let latency ← requiredInteger p "latency"
  let timestamp ← readTime (← requiredString p "timestamp")
  if timestamp.unixNanos?.isNone then .error (.timeOutOfRange timestamp)
  else return ⟨id, target, short, latency, timestamp⟩

/-- The measurement redirects are written to. -/
def measurement : String := "link-redirects"

/-- The point of a redirect. -/
def point? (r : Redirect) : Except SinkError Point := do
  let p ← Point.at? measurement r.timestamp
  let p := ((p.tag "link" r.id).tag "original" r.target).tag "shortened" r.short
  return p.field "latency" (.integer r.latency)

/-- The point of an event that is a redirect. -/
def pointOfEvent (e : Event) : Except SinkError Point :=
  match ofPayload e.payload with
  | .ok r => r.point?
  | .error fault => .error (.mapping fault.message)

end Redirect
end EventCourier
