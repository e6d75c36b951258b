import EventCourier.Broker.Interface
import EventCourier.Dictionary
import EventCourier.Number.Total

/-!
# The in-memory broker

Published messages are copied to every queue bound with exactly their exchange and routing key. Copies are
handed out to the consumers of the live session while fewer are unresolved than the prefetch window allows;
what a session has not resolved goes back to the head of its queue when the session ends. A copy is at every
moment ready in its queue, held by a session, acked or rejected: `ready`, `held` and `resolutions`. What was
ever handed out, and under which tag, stays on record: `issued`.

Each consumer has an outbox of its own, which a forwarder empties into the channel of the consumer's
receiver; `woken` lists the forwarders that have been given something to do.
-/

namespace EventCourier

/-- A copy of a message in a queue; copies are numbered in the order in which they were queued. -/
structure Copy where
  serial : Nat
  message : Message
  redelivered : Bool
deriving DecidableEq, Repr

/-- A copy handed out under a tag and not yet resolved, with the queue it came from. -/
structure Held where
  tag : Tag
  queue : String
  copy : Copy
deriving DecidableEq, Repr

/-- A copy that a session has resolved. -/
structure Resolution where
  held : Held
  outcome : Outcome
deriving DecidableEq, Repr

/-- What a consumer's forwarder does: it waits for deliveries, or with one in hand for room, which may have
been granted but not yet used; or it has found the receiver gone and has ended. -/
inductive Forwarder where
  | idle
  | waiting (d : Delivery) (granted : Bool)
  | ended
deriving DecidableEq, Repr

/-- A consumer of a session on a queue; `receiver` tells whose channel it feeds. -/
structure Consumer where
  id : Nat
  generation : Nat
  tag : String
  queue : String
  receiver : Nat
  outbox : List Delivery
  forwarder : Forwarder
deriving DecidableEq, Repr

/-- The state of the broker. The live session tells the receiver `listener` when it is lost. -/
structure Broker where
  exchanges : List String
  refusals : Nat
  refuseAll : Bool
  openAttempts : Nat
  live : Option Nat
  listener : Option Nat
  nextTag : Nat
  bindings : List Binding
  queues : Dictionary (List Copy)
  consumers : List Consumer
  held : List Held
  issued : List Held
  asserted : List String
  declared : List String
  prefetch : Option Nat
  resolutions : List Resolution
  closed : List Nat
  queued : Nat
  subscribed : Nat
  woken : List Nat

namespace Broker

/-- A broker with some exchanges and nothing else. -/
def withExchanges (exchanges : List String) : Broker where
  exchanges := exchanges
  refusals := 0
  refuseAll := false
  openAttempts := 0
  live := none
  listener := none
  nextTag := 0
  bindings := []
  queues := []
  consumers := []
  held := []
  issued := []
  asserted := []
  declared := []
  prefetch := none
  resolutions := []
  closed := []
  queued := 0
  subscribed := 0
  woken := []

/-! ## Queues -/

/-- The copies that wait in a queue, the next one first. -/
def ready (b : Broker) (queue : String) : List Copy := (b.queues.get? queue).getD []

/-- The broker with other copies in a queue. -/
def setReady (b : Broker) (queue : String) (copies : List Copy) : Broker :=
  { b with queues := b.queues.insert queue copies }

/-- Puts a copy back to the head of its queue. -/
def putBack (b : Broker) (queue : String) (copy : Copy) : Broker := b.setReady queue (copy :: b.ready queue)

/-- How many copies wait in all queues. -/
def readyCount (b : Broker) : Nat := total (b.queues.map fun q => q.2.length)

/-- How many deliveries of a session are unresolved. -/
def inFlight (b : Broker) (generation : Nat) : Nat := b.held.countP fun h => h.tag.generation == generation

/-! ## Handing out -/

/-- The order of tags, by generation and then by number. -/
def tagBefore (a b : Tag) : Bool :=
  decide (a.generation < b.generation ∨ (a.generation = b.generation ∧ a.value < b.value))

/-- Puts a copy among those held, which are in the order of their tags, over one with the same tag. -/
def hold (h : Held) : List Held → List Held
  | [] => [h]
  | k :: rest =>
    if h.tag = k.tag then h :: rest else if tagBefore h.tag k.tag then h :: k :: rest else k :: hold h rest

/-- Puts a delivery into the outbox of the consumer with an identifier. -/
def send (id : Nat) (d : Delivery) (consumers : List Consumer) : List Consumer :=
  consumers.map fun c => if c.id = id then { c with outbox := c.outbox ++ [d] } else c

/-- True if the session may hold another delivery. -/
def hasRoom (b : Broker) (generation : Nat) : Bool :=
  match b.prefetch with
  | some window => decide (b.inFlight generation < window)
  | none => true

/-- The first consumer of the live session with a copy waiting for it, if the session has room. -/
def nextConsumer? (b : Broker) : Option (Nat × Consumer) := do
  let generation ← b.live
  if b.hasRoom generation then
    let c ← b.consumers.find? fun c => c.generation == generation && !(b.ready c.queue).isEmpty
    return (generation, c)
  else none

/-- Hands out one copy. A consumer whose forwarder has ended does not take it, though its number is spent.
-/
inductive HandOut where
  | nothing
  | refused (b : Broker)
  | given (b : Broker)

/-- Hands out the next copy. -/
def handOut (b : Broker) : HandOut :=
  match b.nextConsumer? with
  | none => .nothing
  | some (generation, c) =>
    match b.ready c.queue with
    | [] => .nothing
    | copy :: rest =>
      let tag : Tag := ⟨generation, b.nextTag + 1⟩
      let b := { b with nextTag := b.nextTag + 1 }
      if c.forwarder = .ended then .refused b
      else
        let b := b.setReady c.queue rest
        .given { b with
          consumers := send c.id ⟨copy.message, tag, copy.redelivered⟩ b.consumers
          held := hold ⟨tag, c.queue, copy⟩ b.held
          issued := b.issued ++ [⟨tag, c.queue, copy⟩]
          woken := if c.forwarder = .idle then b.woken ++ [c.id] else b.woken }

/-- Hands out at most a number of copies, until one is refused or none is left to hand out. -/
def dispatchUpTo : Nat → Broker → Broker
  | 0, b => b
  | n + 1, b =>
    match b.handOut with
    | .nothing => b
    | .refused b => b
    | .given b => dispatchUpTo n b

/-- Hands out what can be handed out: at most all copies that wait. -/
def dispatch (b : Broker) : Broker := dispatchUpTo (b.readyCount + 1) b

/-- Queues a copy of a message behind the others. -/
def enqueue (m : Message) (b : Broker) (queue : String) : Broker :=
  dispatch { b.setReady queue (b.ready queue ++ [⟨b.queued, m, false⟩]) with queued := b.queued + 1 }

/-- The queues bound with the exchange and the routing key of a message, once for each such binding. -/
def routes (b : Broker) (m : Message) : List String :=
  (b.bindings.filter fun t => t.exchange = m.exchange ∧ t.routingKey = m.routingKey).map (·.queue)

/-- Publishes a message to every queue bound with its exchange and routing key. -/
def publish (b : Broker) (m : Message) : Broker :=
  (b.routes m).foldl (enqueue m) b

/-! ## Sessions -/

/-- Ends a session: its consumers are gone, and what it held is ready again, the oldest first. -/
def endSession (b : Broker) (generation : Nat) : Broker :=
  let orphans := b.held.filter fun h => h.tag.generation == generation
  let b := { b with
    consumers := b.consumers.filter fun c => c.generation != generation
    held := b.held.filter fun h => h.tag.generation != generation }
  let b : Broker := orphans.foldr (fun h b => b.putBack h.queue { h.copy with redelivered := true }) b
  if b.live = some generation then { b with live := none, listener := none, nextTag := 0 } else b

/-- The live session is lost: what it has to tell, and to which receiver. -/
def drop (b : Broker) (reason : String) : Option (Nat × Notice) × Broker :=
  match b.live with
  | none => (none, b)
  | some generation => (b.listener.map fun r => (r, ⟨generation, reason⟩), b.endSession generation)

/-- The error of a call on a session that is not live. -/
def channelClosed : WorkerError := .connection "channel is closed"

/-- The error of a missing exchange. -/
def exchangeMissing (exchange : String) : WorkerError :=
  .topology ("NOT_FOUND - no exchange '" ++ exchange ++ "' in vhost '/'")

/-- The error of a tag that no unresolved delivery has. -/
def unknownTag (tag : Nat) : WorkerError :=
  .connection s!"PRECONDITION_FAILED - unknown delivery tag {toString tag}"

/-- A call that fails unless its session is the live one. -/
def onLive (generation : Nat) (call : Call Broker) : Call Broker := fun b =>
  if b.live = some generation then call b else (.error channelClosed, b)

/-- Opens a session, unless the attempt is refused. Consumers and deliveries of a session before it stay as
they are. -/
def openSession (receiver generation : Nat) (notify : Bool) : Call Broker := fun b =>
  let b := { b with openAttempts := b.openAttempts + 1 }
  if b.refuseAll || decide (0 < b.refusals) then
    (.error (.connection "connection refused"), { b with refusals := b.refusals - 1 })
  else
    (.ok (), { b with
      live := some generation
      listener := if notify then some receiver else none
      nextTag := 0
      prefetch := none })

/-- Checks that an exchange is there. -/
def assertExchange (generation : Nat) (exchange : String) : Call Broker := onLive generation fun b =>
  if b.exchanges.contains exchange then (.ok (), { b with asserted := b.asserted ++ [exchange] })
  else (.error (exchangeMissing exchange), b)

/-- Makes an exchange, unless it is there. -/
def declareExchange (generation : Nat) (exchange : String) : Call Broker := onLive generation fun b =>
  (.ok (), { b with
    exchanges := if b.exchanges.contains exchange then b.exchanges else b.exchanges ++ [exchange]
    declared := b.declared ++ [exchange] })

/-- Binds a queue, unless it is bound in the same way. -/
def declareQueue (generation : Nat) (t : Binding) : Call Broker := onLive generation fun b =>
  if b.exchanges.contains t.exchange then
    (.ok (), { b with bindings := if b.bindings.contains t then b.bindings else b.bindings ++ [t] })
  else (.error (exchangeMissing t.exchange), b)

/-- Sets the window of unresolved deliveries. -/
def setPrefetch (generation count : Nat) : Call Broker := onLive generation fun b =>
  (.ok (), dispatch { b with prefetch := some count })

/-- Adds a consumer on a queue. -/
def consume (receiver generation : Nat) (queue consumerTag : String) : Call Broker := onLive generation fun b =>
  (.ok (), dispatch { b with
    consumers := b.consumers ++ [⟨b.subscribed, generation, consumerTag, queue, receiver, [], .idle⟩]
    subscribed := b.subscribed + 1
    woken := b.woken ++ [b.subscribed] })

/-- Takes a delivery from those held and resolves it, if its tag is known. -/
def resolve (generation tag : Nat) (outcome : Outcome) : Call Broker := onLive generation fun b =>
  match b.held.find? fun h => h.tag = ⟨generation, tag⟩ with
  | none => (.error (unknownTag tag), b)
  | some h =>
    let b := { b with
      held := b.held.filter fun k => k.tag ≠ ⟨generation, tag⟩
      resolutions := b.resolutions ++ [⟨h, outcome⟩] }
    let b := if outcome = .reject true then b.putBack h.queue { h.copy with redelivered := true } else b
    (.ok (), dispatch b)

/-- Closes a session, which need not be the live one. -/
def close (generation : Nat) : Call Broker := fun b =>
  (.ok (), endSession { b with closed := b.closed ++ [generation] } generation)

/-- The broker as a receiver with a number sees it. -/
def api (receiver : Nat) : BrokerApi Broker where
  openSession := openSession receiver
  assertExchange := assertExchange
  declareExchange := declareExchange
  declareQueue := declareQueue
  setPrefetch := setPrefetch
  consume := consume receiver
  ack generation tag := resolve generation tag .ack
  reject generation tag requeue := resolve generation tag (.reject requeue)
  close := close

/-! ## Views -/

/-- The tags that were acked, in order. -/
def acks (b : Broker) : List Tag :=
  b.resolutions.filterMap fun r => match r.outcome with
    | .ack => some r.held.tag
    | .reject _ => none

/-- The tags that were rejected, in order, and whether their copies went back. -/
def rejects (b : Broker) : List (Tag × Bool) :=
  b.resolutions.filterMap fun r => match r.outcome with
    | .ack => none
    | .reject requeue => some (r.held.tag, requeue)

/-- How many deliveries of the live session are unresolved. -/
def unresolved (b : Broker) : Nat :=
  match b.live with
  | some generation => b.inFlight generation
  | none => 0

/-- The tags of the consumers of the live session. -/
def consumerTags (b : Broker) : List String :=
  (b.consumers.filter fun c => some c.generation == b.live).map (·.tag)

/-- The queues that were bound, sorted. -/
def boundQueues (b : Broker) : List String := Dictionary.distinct (b.bindings.map (·.queue))

end Broker
end EventCourier
