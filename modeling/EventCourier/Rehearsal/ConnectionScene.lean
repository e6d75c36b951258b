import EventCourier.Connection
import EventCourier.Rehearsal.Outside

/-!
# Scenes with a connection

A connection on the in-memory broker, without a worker: its operations are called one after the other, in a
time that passes only in pauses. The shutdown flag can be set by a step, or by a timer while the connection
pauses.
-/

namespace EventCourier.Rehearsal

/-- A step of a scene with a connection. -/
inductive ConnectionStep where
  | outside (a : Outside)
  | listen
  | connect
  | connectWithRetry
  | lose (n : Notice)
  | resolve (t : Tag) (outcome : Outcome)
  | isCurrent (t : Tag)
  | close
  | receive (count : Option Nat)
  | shut
  | setShutdown (value : Bool)
  | dropShutdown
  | sleep (duration : Nat)

/-- A connection, the channel of its deliveries, the time, and the shutdown flag with the times at which it
will be set. Nobody can set the flag any more once `flagDropped`. The journal holds the records of the last
step only. -/
structure ConnectionScene where
  connection : Connection Broker
  channel : Channel
  tasks : List Nat
  now : Nat
  shutdown : Bool
  flagDropped : Bool
  timers : List Nat
  notices : List Notice

namespace ConnectionScene

/-- The scene before the first step. -/
def start (exchanges : List String) (bindings : List Binding) (config : WorkerConfig) : ConnectionScene where
  connection := .closed bindings config false (.withExchanges exchanges)
  channel := .empty config.deliveryBuffer
  tasks := []
  now := 0
  shutdown := false
  flagDropped := false
  timers := []
  notices := []

/-- The broker and the channel, apart from the connection. -/
def relay (s : ConnectionScene) : Relay := ⟨s.connection.broker, s.channel, s.tasks⟩

/-- The scene with another broker and channel. -/
def withRelay (s : ConnectionScene) (r : Relay) : ConnectionScene :=
  { s with connection := { s.connection with broker := r.broker }, channel := r.channel, tasks := r.tasks }

/-- Time passes; the timers up to then set the flag. -/
def passUntil (s : ConnectionScene) (time : Nat) : ConnectionScene :=
  { s with
    now := max s.now time
    shutdown := s.shutdown || s.timers.any (· ≤ time)
    timers := s.timers.filter (time < ·) }

/-- A pause of the connection: it ends when it is over, unless a timer sets the flag before. -/
def pause (s : ConnectionScene) (r : Retry) : Retry × ConnectionScene :=
  let due := s.now + (r.pause? s.connection.config).getD 0
  match (s.timers.filter (· < due)).min? with
  | some t => (r, s.passUntil t)
  | none => (r.resume, { s with now := due })

/-- Runs a series of attempts with at most a number of steps. -/
def run : Nat → Retry → ConnectionScene → Except WorkerError Unit × ConnectionScene
  | _, .done result, s => (result, s)
  | 0, _, s => (.error .shutdown, s)
  | n + 1, r, s =>
    match r.step? (Broker.api 0) s.shutdown s.connection with
    | some (r, c) => run n r { s with connection := c }
    | none =>
      let (r, s) := s.pause r
      run n r s

/-- Runs a series of attempts to its end. -/
def runRetry (s : ConnectionScene) : Except WorkerError Unit × ConnectionScene :=
  run (Retry.bound s.connection.bindings s.connection.config) (.start s.connection.config) s

/-- Does a step, before the forwarders settle. -/
def act (s : ConnectionScene) : ConnectionStep → StepResult × ConnectionScene
  | .outside a =>
    let (notice?, b) := a.act s.connection.broker
    (.nothing, { s with
      connection := { s.connection with broker := b }
      notices := s.notices ++ (notice?.map (·.2)).toList })
  | .listen => (.nothing, { s with connection := { s.connection with notify := true } })
  | .connect =>
    let (result, c) := s.connection.connect (Broker.api 0)
    (.called result, { s with connection := c })
  | .connectWithRetry =>
    let (result, s) := s.runRetry
    (.called result, s)
  | .lose n =>
    match s.connection.lose (Broker.api 0) n with
    | (true, c) =>
      let (result, s) := { s with connection := c }.runRetry
      (.called result, s)
    | (false, c) => (.called (.ok ()), { s with connection := c })
  | .resolve t outcome =>
    let (result, c) := s.connection.resolve (Broker.api 0) t outcome
    (.called result, { s with connection := c })
  | .isCurrent t => (.told (s.connection.isCurrent t), s)
  | .close => (.nothing, { s with connection := s.connection.close (Broker.api 0) })
  | .receive count =>
    let (ds, r) := s.relay.take count
    (.received ds, s.withRelay r)
  | .shut => (.nothing, s.withRelay s.relay.shut)
  | .setShutdown value => (.nothing, if s.flagDropped then s else { s with shutdown := value })
  | .dropShutdown => (.nothing, { s with flagDropped := true, timers := [] })
  | .sleep duration => (.nothing, s.passUntil (s.now + duration))

/-- Sets a timer for the shutdown flag. -/
def setTimer (s : ConnectionScene) (after : Option Nat) : ConnectionScene :=
  if s.flagDropped then s else { s with timers := s.timers ++ (after.map (s.now + ·)).toList }

/-- Does a step, after whose start the shutdown flag may be set by a timer, and lets the forwarders settle.
-/
def play (s : ConnectionScene) (shutdownAfter : Option Nat) (step : ConnectionStep) :
    StepResult × ConnectionScene :=
  let c := { s.connection with journal := { s.connection.journal with records := [] } }
  let (result, s) := ({ s with connection := c, notices := [] }.setTimer shutdownAfter).act step
  let s := s.passUntil s.now
  (result, s.withRelay s.relay.settle)

end ConnectionScene
end EventCourier.Rehearsal
