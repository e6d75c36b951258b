import EventCourier.Rehearsal.Backend
import EventCourier.Rehearsal.Outside
import EventCourier.Worker

/-!
# Scenes with workers

Workers on the in-memory broker with rehearsed backends. Workers and forwarders are tasks that take turns: a
task moves until it has nothing to do or must wait, and what gives another task something to do puts that
task behind the others. Time passes only while no task can move, from one moment at which a wait is over to
the next.

A worker that was given up is not stopped: it goes on beside the one that was started after it.
-/

namespace EventCourier.Rehearsal

/-- What a worker waits for besides deliveries, notices and the shutdown flag: a permit of the gate, the
answer of its backend, or the end of a pause. -/
inductive Wait where
  | nothing
  | gate (r : Reply)
  | backend (due : Nat) (r : Reply)
  | pause (due : Nat)

/-- The moment at which a wait is over. -/
def Wait.due? : Wait → Option Nat
  | .nothing | .gate _ => none
  | .backend due _ | .pause due => some due

/-- A worker in a scene, and what it waits for. -/
structure Actor where
  worker : Worker Broker Ask
  wait : Wait

/-- What takes turns. -/
inductive Turn where
  | forwarder (id : Nat)
  | actor (k : Nat)
deriving DecidableEq, Repr

/-- A step of a scene with workers. -/
inductive WorkerStep where
  | outside (a : Outside)
  | start (stopped : Bool)
  | release (permits : Nat)
  | waitFor (resolutions : Nat)
  | setShutdown (value : Bool)
  | dropShutdown
  | join
  | sleep (duration : Nat)

/-- What every worker of a scene is started with. -/
structure Cast where
  name : String
  router : Router (Sink Ask)
  bindings : List Binding
  config : WorkerConfig
  clock : Instant

/-- The broker, the workers in the order of their starts, the backends with the workers that wait at their
gate, the turns to take, the time, and what all workers have written to the journal. Once the newest worker
is `abandoned` its end is not waited for any more, and once `flagDropped` nobody can set its flag any more.
The journal holds the records of the last step only, the backends the questions of the last step. -/
structure WorkerScene where
  cast : Cast
  broker : Broker
  actors : List Actor
  backends : Backends
  gate : List Nat
  turns : List Turn
  now : Nat
  journal : Journal
  abandoned : Bool
  flagDropped : Bool

namespace WorkerScene

/-- The scene before the first step. -/
def start (cast : Cast) (exchanges : List String) (backends : Backends) : WorkerScene where
  cast := cast
  broker := .withExchanges exchanges
  actors := []
  backends := backends
  gate := []
  turns := []
  now := 0
  journal := .empty
  abandoned := false
  flagDropped := false

/-! ## Turns -/

/-- Puts a task behind the others. -/
def call (s : WorkerScene) (t : Turn) : WorkerScene := { s with turns := schedule s.turns t }

/-- Puts the forwarders behind the others that were given something to do. -/
def callForwarders (s : WorkerScene) (ids : List Nat) : WorkerScene :=
  ids.foldl (fun s id => s.call (.forwarder id)) s

/-- Takes over the state of the broker. -/
def withBroker (s : WorkerScene) (b : Broker) : WorkerScene :=
  { s with broker := { b with woken := [] } }.callForwarders b.woken

/-- The scene with another actor in a place. -/
def withActor (s : WorkerScene) (k : Nat) (a : Actor) : WorkerScene := { s with actors := s.actors.set k a }

/-- True of a worker that looks for something to do. -/
def isChoosing (w : Worker Broker Ask) : Bool :=
  match w.activity with
  | .choosing => true
  | _ => false

/-- Calls a worker, if it looks for something to do. -/
def callChoosing (s : WorkerScene) (k : Nat) : WorkerScene :=
  match s.actors[k]? with
  | some a => if isChoosing a.worker then s.call (.actor k) else s
  | none => s

/-! ## Moves -/

/-- One move of a forwarder. -/
def forward? (s : WorkerScene) (id : Nat) : Option WorkerScene := do
  let c ← s.broker.consumer? id
  let a ← s.actors[c.receiver]?
  let (b, ch) ← s.broker.forward? a.worker.channel id
  let s := (s.withBroker b).withActor c.receiver { a with worker := { a.worker with channel := ch } }
  return if a.worker.channel.buffer.length < ch.buffer.length then s.callChoosing c.receiver else s

/-- A worker has made a step: the broker and the journal take over what it did, free places of its channel
are granted, and a worker that has stopped leaves its channel. -/
def took (s : WorkerScene) (k : Nat) (w : Worker Broker Ask) : WorkerScene :=
  let s := s.withBroker w.connection.broker
  let s := { s with journal := s.journal.append w.connection.journal }
  let w := { w with connection := { w.connection with journal := .empty } }
  match w.result? with
  | some _ =>
    let left := { w with channel := { w.channel.shut with waiting := [] } }
    (s.withActor k ⟨left, .nothing⟩).callForwarders w.channel.waiting
  | none =>
    let (ids, b, ch) := s.broker.grant k w.channel
    ({ s with broker := b }.withActor k ⟨{ w with channel := ch }, .nothing⟩).callForwarders ids

/-- A worker that cannot go on by itself begins to wait: for the end of its pause, or for its backend. -/
def await? (s : WorkerScene) (k : Nat) (w : Worker Broker Ask) : Option WorkerScene :=
  let pause (duration : Nat) : WorkerScene := s.withActor k ⟨w, .pause (s.now + duration)⟩
  match w.activity with
  | .connecting r => (r.pause? w.connection.config).map pause
  | .holding _ _ => some (pause w.connection.config.requeueDelay)
  | .persisting _ p =>
    let (r, bs) := s.backends.ask p.request
    let s := { s with backends := bs }
    if r.gate ∧ bs.permits = 0 then some ({ s with gate := s.gate ++ [k] }.withActor k ⟨w, .gate r⟩)
    else
      let s := if r.gate then { s with backends := { bs with permits := bs.permits - 1 } } else s
      some (s.withActor k ⟨w, .backend (s.now + r.delay) r⟩)
  | _ => none

/-- One move of a worker: a step of its own, the beginning of a wait, or what follows when a wait is over.
-/
def moveActor? (s : WorkerScene) (k : Nat) : Option WorkerScene := do
  let a ← s.actors[k]?
  let w := { a.worker with connection := { a.worker.connection with broker := s.broker } }
  match w.step? (Broker.api k) with
  | some w => return s.took k w
  | none =>
    match a.wait with
    | .nothing => s.await? k w
    | .gate _ => none
    | .backend due r => if due ≤ s.now then some (s.took k (w.answer r.result r.delay)) else none
    | .pause due => if due ≤ s.now then some (s.took k w.resume) else none

/-- One move of the task whose turn it is; its turn is over when it cannot move. -/
def move? (s : WorkerScene) : Option WorkerScene :=
  match s.turns with
  | [] => none
  | t :: rest =>
    let moved := match t with
      | .forwarder id => s.forward? id
      | .actor k => s.moveActor? k
    some (moved.getD { s with turns := rest })

/-- Makes at most a number of moves. -/
def moves : Nat → WorkerScene → WorkerScene
  | 0, s => s
  | n + 1, s => match s.move? with
    | some s => moves n s
    | none => s

/-- The moves after which a scene is taken to go on for ever without time passing. -/
def patience : Nat := 1000000

/-- Lets the tasks move until none can. -/
def settle (s : WorkerScene) : WorkerScene := s.moves patience

/-! ## Time -/

/-- The next moment, up to a limit, at which a wait is over. -/
def nextMoment? (s : WorkerScene) (limit : Nat) : Option Nat :=
  ((s.actors.filterMap (·.wait.due?)).filter (· ≤ limit)).min?

/-- It is a later time; the workers are called whose waits are over. -/
def passTo (s : WorkerScene) (time : Nat) : WorkerScene :=
  let finished := s.actors.zipIdx.filter fun a => match a.1.wait.due? with
    | some due => decide (due ≤ time)
    | none => false
  finished.foldl (fun s a => s.call (.actor a.2)) { s with now := max s.now time }

/-- Lets at most a number of moments pass, up to a limit, or until something has happened. -/
def passMoments (happened : WorkerScene → Bool) (limit : Nat) : Nat → WorkerScene → WorkerScene
  | 0, s => s.settle
  | n + 1, s =>
    let s := s.settle
    if happened s then s
    else match s.nextMoment? limit with
      | some t => passMoments happened limit n (s.passTo t)
      | none => s.passTo limit

/-- Lets time pass up to a limit, or until something has happened. When the tasks have settled every moment
is later than now, so there are at most as many as the time has milliseconds. -/
def passUntil (s : WorkerScene) (limit : Nat) (happened : WorkerScene → Bool) : WorkerScene :=
  passMoments happened limit (limit - s.now + 1) s

/-- How many deliveries have been resolved. -/
def resolved (s : WorkerScene) : Nat := s.broker.resolutions.length

/-- Looks every five milliseconds whether enough deliveries have been resolved; what falls due at the moment
of a look comes after it. -/
def look (count : Nat) : Nat → WorkerScene → Bool × WorkerScene
  | 0, s => (decide (count ≤ s.resolved), s)
  | n + 1, s =>
    if count ≤ s.resolved then (true, s)
    else look count n { s.passUntil (s.now + 4) fun _ => false with now := s.now + 5 }

/-! ## Steps -/

/-- The newest worker. -/
def newest? (s : WorkerScene) : Option (Worker Broker Ask) := s.actors.getLast?.map (·.worker)

/-- How the newest worker ended, once it has. -/
def finished? (s : WorkerScene) : Option (Except WorkerError Unit) := s.newest?.bind (·.result?)

/-- True while the end of the newest worker is waited for. -/
def isRunning (s : WorkerScene) : Bool := !s.actors.isEmpty && !s.abandoned && s.finished?.isNone

/-- Starts a worker, unless the end of one is waited for. -/
def startWorker (s : WorkerScene) (stopped : Bool) : StepResult × WorkerScene :=
  if s.isRunning then (.nothing, s)
  else
    let c := s.cast
    let w : Worker Broker Ask :=
      { Worker.start c.name c.router c.bindings c.config s.broker c.clock with shutdown := stopped }
    let k := s.actors.length
    let s := { s with actors := s.actors ++ [⟨w, .nothing⟩], abandoned := false, flagDropped := false }
    (.counted c.bindings.length, call s (.actor k))

/-- Adds permits to the gate; the workers that wait there take them in turn. -/
def addPermits : Nat → WorkerScene → WorkerScene
  | 0, s => s
  | n + 1, s =>
    match s.gate with
    | [] => { s with backends := { s.backends with permits := s.backends.permits + (n + 1) } }
    | k :: rest =>
      let s : WorkerScene := { s with gate := rest }
      addPermits n <| match s.actors[k]? with
        | some ⟨w, .gate r⟩ => (s.withActor k ⟨w, .backend (s.now + r.delay) r⟩).call (.actor k)
        | _ => s

/-- Delivers a notice to a worker. -/
def notify (s : WorkerScene) (k : Nat) (n : Notice) : WorkerScene :=
  match s.actors[k]? with
  | some a =>
    let w := { a.worker with notices := a.worker.notices ++ [n] }
    (s.withActor k { a with worker := w }).callChoosing k
  | none => s

/-- Sets the flag of the newest worker. -/
def setShutdown (s : WorkerScene) (value : Bool) : WorkerScene :=
  let k := s.actors.length - 1
  match s.actors[k]? with
  | some a =>
    if s.flagDropped then s
    else (s.withActor k { a with worker := { a.worker with shutdown := value } }).call (.actor k)
  | none => s

/-- How long the end of a worker is waited for, in milliseconds. -/
def joinLimit : Nat := 3600000

/-- Does a step, before the tasks settle. -/
def act (s : WorkerScene) : WorkerStep → StepResult × WorkerScene
  | .outside a =>
    let (notice?, b) := a.act s.broker
    let s := s.withBroker b
    (.nothing, match notice? with
      | some (k, n) => s.notify k n
      | none => s)
  | .start stopped => s.startWorker stopped
  | .release permits => (.nothing, addPermits permits s)
  | .waitFor resolutions =>
    let (b, s) := look resolutions 1000 s
    (.told b, s)
  | .setShutdown value => (.nothing, s.setShutdown value)
  | .dropShutdown => (.nothing, { s with flagDropped := true })
  | .join =>
    if s.isRunning then
      let s := s.passUntil (s.now + joinLimit) fun s => s.finished?.isSome
      (.told s.finished?.isSome, { s with abandoned := s.finished?.isNone })
    else (.nothing, s)
  | .sleep duration => (.nothing, s.passUntil (s.now + duration) fun _ => false)

/-- Does a step and lets the tasks settle. -/
def play (s : WorkerScene) (step : WorkerStep) : StepResult × WorkerScene :=
  let (result, s) := { s with
    journal := { s.journal with records := [] }
    backends := { s.backends with asked := [] } }.act step
  (result, (s.passTo s.now).settle)

end WorkerScene
end EventCourier.Rehearsal
