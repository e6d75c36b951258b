import EventCourier.Journal
import EventCourier.Router

/-!
# Handling one message

A delivery is decoded, routed and turned into the request that its sink makes of a backend; the answer of
the backend, or the first failure, decides how the delivery is resolved. What a delivery cannot be decoded
or mapped for never reaches a backend. `process` goes all the way at once; `prepare` and `conclude` are its two
halves, for a caller that has the backend answer in between.
-/

namespace EventCourier

/-- A sink: its name, and the request it makes to store an event. -/
structure Sink (ρ : Type) where
  name : String
  request : Event → Except SinkError ρ

/-- What a sink says to an event, and after how many milliseconds. -/
structure Verdict where
  result : Except SinkError Unit
  duration : Nat

/-- A sink persists an event: it asks a backend for what it has made of the event, and an event that it makes no
request of it refuses at once. -/
def Sink.persist {ρ σ : Type} (ask : ρ → σ → Verdict × σ) (sink : Sink ρ) (event : Event) (s : σ) : Verdict × σ :=
  match sink.request event with
  | .ok request => ask request s
  | .error e => (⟨.error e, 0⟩, s)

/-- What handling a delivery has come to before a backend is asked. -/
structure Prepared (ρ : Type) where
  sink : String
  event : Event
  request : ρ

/-- What handling a delivery has come to in the end, and what has become of everything outside. -/
structure Handled (σ : Type) where
  outcome : Outcome
  journal : Journal
  outside : σ

namespace Pipeline

variable {ρ σ : Type}

/-- Decodes a message and asks its sink for a request. -/
def prepare (router : Router (Sink ρ)) (m : Message) (receivedAt : Instant) :
    Except WorkerError (Prepared ρ) :=
  match m.event? receivedAt with
  | .error e => .error e
  | .ok event =>
    let sink := router.select event.routingKey
    match sink.request event with
    | .error e => .error (.sink e)
    | .ok request => .ok ⟨sink.name, event, request⟩

/-- The outcome of a delivery that failed. -/
def outcomeOf (policy : RejectPolicy) (e : WorkerError) : Outcome := .reject (policy.shouldRequeue e)

/-- What the journal says of a delivery that failed. -/
def reject (policy : RejectPolicy) (d : Delivery) (e : WorkerError) (j : Journal) : Outcome × Journal :=
  let requeue := policy.shouldRequeue e
  (outcomeOf policy e,
    (j.record (.messageFailed e requeue d.redelivered d.message.bodyText)).mark (.rejected e.kind requeue))

/-- The outcome of a delivery whose sink has answered, and what the journal says of it. -/
def conclude (policy : RejectPolicy) (d : Delivery) (sink : String) (duration : Nat)
    (answer : Except SinkError Unit) (j : Journal) : Outcome × Journal :=
  match answer with
  | .ok () => (.ack, j.mark (.acked sink duration))
  | .error e => reject policy d (.sink e) j

/-- Handles a delivery: it is decoded, and the sink of its routing key persists the event. -/
def process (router : Router (Sink ρ)) (policy : RejectPolicy) (persist : Sink ρ → Event → σ → Verdict × σ)
    (d : Delivery) (receivedAt : Instant) (j : Journal) (s : σ) : Handled σ :=
  let j := j.mark (.received d.message.routingKey)
  match d.message.event? receivedAt with
  | .error e =>
    let (outcome, j) := reject policy d e j
    ⟨outcome, j, s⟩
  | .ok event =>
    let sink := router.select event.routingKey
    let (verdict, s) := persist sink event s
    let (outcome, j) := conclude policy d sink.name verdict.duration verdict.result j
    ⟨outcome, j, s⟩

end Pipeline
end EventCourier
