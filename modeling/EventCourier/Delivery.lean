import EventCourier.Payload
import EventCourier.Instant.Reader

/-!
# Deliveries and events

A delivery is a message as the broker hands it out; an event is what its body decodes to. The tag of a
delivery holds the generation of the session that issued it, since the numbers start again with every
session.
-/

namespace EventCourier

/-- The handle by which one delivery is resolved: the generation of its session and its number in it. -/
structure Tag where
  generation : Nat
  value : Nat
deriving DecidableEq, Repr, Inhabited

/-- The tag in words. -/
def Tag.text (t : Tag) : String := s!"{toString t.generation}#{toString t.value}"

/-- A message that was published. -/
structure Message where
  exchange : String
  routingKey : String
  body : List UInt8
deriving DecidableEq, Repr

/-- A message in the hands of a consumer. -/
structure Delivery where
  message : Message
  tag : Tag
  redelivered : Bool
deriving DecidableEq, Repr

/-- A delivery after decoding. -/
structure Event where
  entity : String
  eventType : String
  routingKey : String
  receivedAt : Instant
  payload : Payload

/-- The part of a routing key behind its first dot, or all of it if there is no dot. -/
def eventTypeOf (routingKey : String) : String :=
  match routingKey.toList.dropWhile (· ≠ '.') with
  | _ :: rest => String.ofList rest
  | [] => routingKey

/-- The event of a message: the exchange is its entity. -/
def Message.event? (m : Message) (receivedAt : Instant) : Except WorkerError Event :=
  match Payload.decode m.body with
  | .ok payload => .ok ⟨m.exchange, eventTypeOf m.routingKey, m.routingKey, receivedAt, payload⟩
  | .error e => .error e

/-- The body as text for logs. -/
def Message.bodyText (m : Message) : String := Utf8.lossy m.body

end EventCourier
