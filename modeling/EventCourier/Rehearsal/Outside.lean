import EventCourier.Rehearsal.Relay

/-!
# What happens from outside

Scenes rehearse the broker, the connection or the worker step by step. Some of their steps act on the broker
from outside: a message is published, the session is lost, attempts to open a session are refused.
-/

namespace EventCourier.Rehearsal

/-- Actions on the broker from outside. -/
inductive Outside where
  | publish (m : Message) (times : Nat)
  | drop (reason : String)
  | refuseNext (count : Nat)
  | refuseAll

/-- Publishes a message a number of times. -/
def publishTimes (m : Message) : Nat → Broker → Broker
  | 0, b => b
  | n + 1, b => publishTimes m n (b.publish m)

/-- What an action from outside does to the broker, and the notice it sends to a receiver. -/
def Outside.act (a : Outside) (b : Broker) : Option (Nat × Notice) × Broker :=
  match a with
  | .publish m times => (none, publishTimes m times b)
  | .drop reason => b.drop reason
  | .refuseNext count => (none, { b with refusals := count })
  | .refuseAll => (none, { b with refuseAll := true })

/-- What a step of a scene returns. -/
inductive StepResult where
  | nothing
  | called (result : Except WorkerError Unit)
  | received (ds : List Delivery)
  | told (answer : Bool)
  | counted (n : Nat)
  | noSession

end EventCourier.Rehearsal
