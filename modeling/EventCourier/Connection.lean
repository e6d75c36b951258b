import EventCourier.Journal
import EventCourier.Settings.Worker

/-!
# The connection

The connection owns the one session with the broker. Every attempt to connect has a generation of its own,
and tags and notices of another generation than the current one are not acted on. An attempt that fails is
undone whole. `connect` makes one attempt at once; `Attempt` makes it call by call, so that anything may
happen to the broker between two calls. `Retry` makes up to the configured number of attempts with a pause
between two, during which a requested shutdown is heeded.
-/

namespace EventCourier

/-- A call that sets up a session. -/
inductive SetupCall where
  | declareExchange (exchange : String)
  | assertExchange (exchange : String)
  | declareQueue (t : Binding)
  | setPrefetch (count : Nat)
  | consume (queue consumerTag : String)
deriving DecidableEq, Repr

/-- Makes the call on a session. -/
def SetupCall.run {β : Type} (api : BrokerApi β) (session : Nat) : SetupCall → Call β
  | .declareExchange exchange => api.declareExchange session exchange
  | .assertExchange exchange => api.assertExchange session exchange
  | .declareQueue t => api.declareQueue session t
  | .setPrefetch count => api.setPrefetch session count
  | .consume queue consumerTag => api.consume session queue consumerTag

/-- The connection together with the state of the broker behind it and the journal. -/
structure Connection (β : Type) where
  bindings : List Binding
  config : WorkerConfig
  notify : Bool
  session : Option Nat
  generation : Nat
  state : ConnectionState
  broker : β
  journal : Journal

namespace Connection

variable {β : Type}

/-- A connection that has not been opened. -/
def closed (bindings : List Binding) (config : WorkerConfig) (notify : Bool) (broker : β) : Connection β where
  bindings := bindings
  config := config
  notify := notify
  session := none
  generation := 0
  state := .disconnected
  broker := broker
  journal := .empty

/-- Adds a mark to the journal. -/
def mark (c : Connection β) (m : Mark) : Connection β := { c with journal := c.journal.mark m }

/-- Adds a record to the journal. -/
def record (c : Connection β) (r : LogRecord) : Connection β := { c with journal := c.journal.record r }

/-- Publishes a state. -/
def publish (c : Connection β) (s : ConnectionState) : Connection β := { c with state := s }.mark (.state s)

/-- True if the open session issued the tag. -/
def isCurrent (c : Connection β) (t : Tag) : Bool := c.session.isSome && t.generation == c.generation

/-- Everything a session needs: exchanges, queues, prefetch and consumers, in this order. -/
def setupCalls (bindings : List Binding) (config : WorkerConfig) : List SetupCall :=
  (Topology.exchanges bindings).map
      (if config.declareExchanges then SetupCall.declareExchange else SetupCall.assertExchange) ++
    bindings.map SetupCall.declareQueue ++
    [.setPrefetch config.prefetch] ++
    bindings.map fun t => .consume t.queue (config.consumerTagFor t.queue)

/-- Lets go of the session, whether or not it can be closed. -/
def release (api : BrokerApi β) (c : Connection β) : Connection β :=
  match c.session with
  | none => c
  | some session => { c with session := none, broker := (api.close session c.broker).2 }

/-! ## One attempt -/

/-- An attempt begins: the session before it is released, and the next generation is current. -/
def startAttempt (api : BrokerApi β) (c : Connection β) : Connection β :=
  let c := c.release api
  { c with generation := c.generation + 1 }.publish .connecting

/-- The session that was opened is set up. -/
def establish (c : Connection β) : Connection β := { c with session := some c.generation }.publish .connected

/-- The session that was opened cannot be set up and is closed again. -/
def undo (api : BrokerApi β) (c : Connection β) : Connection β :=
  { c with broker := (api.close c.generation c.broker).2 }.publish .disconnected

/-- One attempt that nothing comes in between. -/
def connect (api : BrokerApi β) (c : Connection β) : Except WorkerError Unit × Connection β :=
  let c := c.startAttempt api
  match api.openSession c.generation c.notify c.broker with
  | (.error e, b) => (.error e, { c with broker := b }.publish .disconnected)
  | (.ok (), b) =>
    match Call.all ((setupCalls c.bindings c.config).map (·.run api c.generation)) b with
    | (.error e, b) => (.error e, { c with broker := b }.undo api)
    | (.ok (), b) => (.ok (), { c with broker := b }.establish)

/-! ## Other operations -/

/-- Resolves a delivery with the session that issued it; a tag of another session is passed over. -/
def resolve (api : BrokerApi β) (c : Connection β) (t : Tag) (outcome : Outcome) :
    Except WorkerError Unit × Connection β :=
  match c.session with
  | none => (.ok (), c)
  | some session =>
    if c.isCurrent t then
      let call := match outcome with
        | .ack => api.ack session t.value
        | .reject requeue => api.reject session t.value requeue
      ((call c.broker).1, { c with broker := (call c.broker).2 })
    else (.ok (), c)

/-- Closes the session for good. -/
def close (api : BrokerApi β) (c : Connection β) : Connection β := (c.publish .shuttingDown).release api

/-- Takes note of a lost session, if it is the current one, and tells whether it was. -/
def lose (api : BrokerApi β) (c : Connection β) (n : Notice) : Bool × Connection β :=
  if c.session.isSome && n.generation == c.generation then
    (true, (((c.record (.sessionLost n)).mark .lost).release api).publish .disconnected)
  else (false, c)

end Connection

/-! ## An attempt call by call -/

/-- Where an attempt stands: a session is to be opened, calls that set it up are left, a failed set-up is to
be undone, or the attempt is over. -/
inductive Attempt where
  | opening
  | settingUp (left : List SetupCall)
  | undoing (e : WorkerError)
  | over (result : Except WorkerError Unit)

namespace Attempt

variable {β : Type}

/-- One step of an attempt, with at most one call. -/
def step (api : BrokerApi β) (a : Attempt) (c : Connection β) : Attempt × Connection β :=
  match a with
  | .opening =>
    match api.openSession c.generation c.notify c.broker with
    | (.error e, b) => (.over (.error e), { c with broker := b }.publish .disconnected)
    | (.ok (), b) => (.settingUp (Connection.setupCalls c.bindings c.config), { c with broker := b })
  | .settingUp [] => (.over (.ok ()), c.establish)
  | .settingUp (call :: left) =>
    match call.run api c.generation c.broker with
    | (.error e, b) => (.undoing e, { c with broker := b })
    | (.ok (), b) => (.settingUp left, { c with broker := b })
  | .undoing e => (.over (.error e), c.undo api)
  | .over result => (.over result, c)

/-- Makes a number of steps. -/
def steps (api : BrokerApi β) : Nat → Attempt → Connection β → Attempt × Connection β
  | 0, a, c => (a, c)
  | n + 1, a, c =>
    let (a, c) := a.step api c
    steps api n a c

end Attempt

/-! ## Several attempts -/

/-- Where a series of attempts stands: before an attempt, in the midst of it, in the pause behind it, or at
its end. -/
inductive Retry where
  | trying (attempt : Nat)
  | attempting (attempt : Nat) (a : Attempt)
  | pausing (attempt : Nat)
  | done (result : Except WorkerError Unit)

namespace Retry

variable {β : Type}

/-- The start of a series; one without attempts is over at once. -/
def start (config : WorkerConfig) : Retry :=
  if config.maxAttempts = 0 then .done (.error (.reconnectExhausted 0 "")) else .trying 1

/-- What a failed attempt leads to. A topology that is not usable ends the series. -/
def afterFailure (attempt maxAttempts : Nat) (e : WorkerError) (c : Connection β) : Retry × Connection β :=
  let c := c.mark (.attempt false)
  match e with
  | .topology _ => (.done (.error e), c.record (.topologyUnusable e))
  | _ =>
    (if attempt < maxAttempts then .pausing attempt
      else .done (.error (.reconnectExhausted maxAttempts e.message)),
      c.record (.attemptFailed attempt maxAttempts e))

/-- One step of a series: of an attempt, or its end by a requested shutdown, which is heeded only between
attempts. None in a pause without a shutdown, and at the end. -/
def step? (api : BrokerApi β) (shutdown : Bool) (r : Retry) (c : Connection β) :
    Option (Retry × Connection β) :=
  match r with
  | .trying attempt =>
    if shutdown then some (.done (.error .shutdown), c)
    else some (.attempting attempt .opening, c.startAttempt api)
  | .attempting _ (.over (.ok ())) => some (.done (.ok ()), c.mark (.attempt true))
  | .attempting attempt (.over (.error e)) => some (afterFailure attempt c.config.maxAttempts e c)
  | .attempting attempt a =>
    let (a, c) := a.step api c
    some (.attempting attempt a, c)
  | .pausing _ => if shutdown then some (.done (.error .shutdown), c) else none
  | .done _ => none

/-- How long a series waits where it stands, if it does. -/
def pause? (config : WorkerConfig) : Retry → Option Nat
  | .pausing _ => some config.reconnectDelay
  | .trying _ | .attempting _ _ | .done _ => none

/-- The end of a pause. -/
def resume : Retry → Retry
  | .pausing attempt => .trying (attempt + 1)
  | r => r

/-- A bound on the steps of a series and its pauses. An attempt makes one step for each call of the set-up
and at most four others, and a pause may follow it. -/
def bound (bindings : List Binding) (config : WorkerConfig) : Nat :=
  config.maxAttempts * ((Connection.setupCalls bindings config).length + 5) + 1

end Retry
end EventCourier
