import EventCourier.Delivery
import EventCourier.Topology

/-!
# Brokers

What the worker asks of a broker. A call acts on the state of whatever stands behind the broker and may
fail; a session is named by the generation it was opened under. `Call.all` runs calls in order up to the
first failure.
-/

namespace EventCourier

/-- Word of a session that was lost without having been closed. -/
structure Notice where
  generation : Nat
  reason : String
deriving DecidableEq, Repr

/-- How a delivery is resolved. -/
inductive Outcome where
  | ack
  | reject (requeue : Bool)
deriving DecidableEq, Repr

/-- The outcome in words. -/
def Outcome.text : Outcome → String
  | .ack => "Ack"
  | .reject true => "Reject \x7b requeue: true \x7d"
  | .reject false => "Reject \x7b requeue: false \x7d"

/-- A call on a state, which may fail and may change the state in either case. -/
abbrev Call (β : Type) := β → Except WorkerError Unit × β

namespace Call

variable {β : Type}

/-- The call that does nothing. -/
def skip : Call β := fun b => (.ok (), b)

/-- A call and, unless it fails, another. -/
def andThen (first second : Call β) : Call β := fun b =>
  match first b with
  | (.ok (), b) => second b
  | (.error e, b) => (.error e, b)

/-- Calls in order, up to the first that fails. -/
def all : List (Call β) → Call β
  | [] => skip
  | call :: calls => call.andThen (all calls)

end Call

/-- What a broker offers. All calls but the first name the session by its generation. A session may be asked
to send word when it is lost. -/
structure BrokerApi (β : Type) where
  openSession : (generation : Nat) → (notify : Bool) → Call β
  assertExchange : Nat → (exchange : String) → Call β
  declareExchange : Nat → (exchange : String) → Call β
  declareQueue : Nat → Binding → Call β
  setPrefetch : Nat → (count : Nat) → Call β
  consume : Nat → (queue consumerTag : String) → Call β
  ack : Nat → (tag : Nat) → Call β
  reject : Nat → (tag : Nat) → (requeue : Bool) → Call β
  close : Nat → Call β

end EventCourier
