import EventCourier.Broker.Channel
import EventCourier.Connection
import EventCourier.Pipeline

/-!
# The worker

The worker connects, handles deliveries one at a time, reconnects when its session is lost, and closes the
session on every way out. It is a machine that makes one step at a time: `step?` is the next step it can
make on its own, `resume` the end of a pause, and `answer` the answer of a backend. Between two steps
anything may happen to the broker, the channel, the notices and the shutdown flag.

Between deliveries, a requested shutdown comes first, then notices of lost sessions, then deliveries. A
delivery that is being handled is resolved before anything else happens.
-/

namespace EventCourier

/-- What the worker is about. -/
inductive Activity (ρ : Type) where
  | connecting (r : Retry)
  | choosing
  | handling (d : Delivery)
  | persisting (d : Delivery) (p : Prepared ρ)
  | holding (d : Delivery) (outcome : Outcome)
  | resolving (d : Delivery) (outcome : Outcome)
  | closing (result : Except WorkerError Unit)
  | stopped (result : Except WorkerError Unit)

/-- The worker: its connection, what has reached it, and what it is about. -/
structure Worker (β ρ : Type) where
  name : String
  router : Router (Sink ρ)
  connection : Connection β
  channel : Channel
  notices : List Notice
  shutdown : Bool
  clock : Instant
  activity : Activity ρ

namespace Worker

variable {β ρ : Type}

/-- A worker that is about to run. Without bindings there is nothing to run for. -/
def start (name : String) (router : Router (Sink ρ)) (bindings : List Binding) (config : WorkerConfig)
    (broker : β) (clock : Instant) : Worker β ρ where
  name := name
  router := router
  connection := .closed bindings config true broker
  channel := .empty config.deliveryBuffer
  notices := []
  shutdown := false
  clock := clock
  activity :=
    if bindings.isEmpty then .stopped (.error (.config "no queue bindings configured"))
    else .connecting (.start config)

/-- The worker with something else to do. -/
def turnTo (w : Worker β ρ) (a : Activity ρ) : Worker β ρ := { w with activity := a }

/-- A delivery has its outcome. One that goes back to its queue is held for a while first. -/
def decided (w : Worker β ρ) (d : Delivery) (result : Outcome × Journal) : Worker β ρ :=
  let w := { w with connection := { w.connection with journal := result.2 } }
  if result.1 = .reject true ∧ w.connection.config.requeueDelay ≠ 0 then w.turnTo (.holding d result.1)
  else w.turnTo (.resolving d result.1)

/-- Chooses what is next: to stop, to look after a lost session, or to take a delivery. -/
def choose? (api : BrokerApi β) (w : Worker β ρ) : Option (Worker β ρ) :=
  if w.shutdown then some (w.turnTo (.closing (.ok ())))
  else match w.notices with
    | n :: rest =>
      let (current, c) := w.connection.lose api n
      let w := { w with notices := rest, connection := c }
      some (if current then w.turnTo (.connecting (.start c.config)) else w)
    | [] =>
      match w.channel.buffer with
      | d :: rest => some { w with channel := { w.channel with buffer := rest }, activity := .handling d }
      | [] => none

/-- Starts to handle a delivery. One of another session than the current is dropped. -/
def handle (w : Worker β ρ) (d : Delivery) : Worker β ρ :=
  if w.connection.isCurrent d.tag then
    let w := { w with connection := w.connection.mark (.received d.message.routingKey) }
    match Pipeline.prepare w.router d.message w.clock with
    | .ok p => w.turnTo (.persisting d p)
    | .error e => w.decided d (Pipeline.reject w.connection.config.rejectPolicy d e w.connection.journal)
  else { w with connection := w.connection.mark .stale, activity := .choosing }

/-- Resolves a delivery; a failure to do so is only recorded. -/
def settle (api : BrokerApi β) (w : Worker β ρ) (d : Delivery) (outcome : Outcome) : Worker β ρ :=
  match w.connection.resolve api d.tag outcome with
  | (.ok (), c) => { w with connection := c, activity := .choosing }
  | (.error e, c) => { w with connection := c.record (.resolveFailed d.tag outcome e), activity := .choosing }

/-- How the worker ends: a requested shutdown is no failure. -/
def finish (api : BrokerApi β) (w : Worker β ρ) (result : Except WorkerError Unit) : Worker β ρ :=
  let c := w.connection.close api
  match result with
  | .ok () | .error .shutdown => { w with connection := c, activity := .stopped (.ok ()) }
  | .error e => { w with connection := c.record (.workerFailed w.name e), activity := .stopped (.error e) }

/-- The next step the worker can make on its own; none while it waits. -/
def step? (api : BrokerApi β) (w : Worker β ρ) : Option (Worker β ρ) :=
  match w.activity with
  | .connecting (.done (.ok ())) => some (w.turnTo .choosing)
  | .connecting (.done (.error e)) => some (w.turnTo (.closing (.error e)))
  | .connecting r =>
    (r.step? api w.shutdown w.connection).map fun (r, c) =>
      { w with connection := c, activity := .connecting r }
  | .choosing => w.choose? api
  | .handling d => some (w.handle d)
  | .persisting _ _ => none
  | .holding d outcome => if w.shutdown then some (w.turnTo (.resolving d outcome)) else none
  | .resolving d outcome => some (w.settle api d outcome)
  | .closing result => some (w.finish api result)
  | .stopped _ => none

/-- The end of a pause. -/
def resume (w : Worker β ρ) : Worker β ρ :=
  match w.activity with
  | .connecting r => w.turnTo (.connecting r.resume)
  | .holding d outcome => w.turnTo (.resolving d outcome)
  | _ => w

/-- The answer of the backend that was asked, and how long it took in milliseconds. -/
def answer (w : Worker β ρ) (result : Except SinkError Unit) (duration : Nat) : Worker β ρ :=
  match w.activity with
  | .persisting d p =>
    let c := w.connection
    w.decided d (Pipeline.conclude c.config.rejectPolicy d p.sink duration result c.journal)
  | _ => w

/-- How the worker ended, once it has. -/
def result? (w : Worker β ρ) : Option (Except WorkerError Unit) :=
  match w.activity with
  | .stopped result => some result
  | _ => none

end Worker
end EventCourier
