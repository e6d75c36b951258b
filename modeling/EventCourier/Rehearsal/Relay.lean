import EventCourier.Broker.Channel

/-!
# One receiver

The in-memory broker with the channel of one receiver. Forwarders take turns in the order in which they were
given something to do, and each moves until it has nothing to do or must wait.
-/

namespace EventCourier.Rehearsal

/-- Puts a task behind the others, unless it is among them. -/
def schedule {α : Type} [DecidableEq α] (tasks : List α) (t : α) : List α :=
  if t ∈ tasks then tasks else tasks ++ [t]

/-- The broker, the channel of its receiver, and the forwarders that have something to do, in turn. -/
structure Relay where
  broker : Broker
  channel : Channel
  tasks : List Nat

namespace Relay

/-- Gives a turn to the forwarders that the broker has woken. -/
def collect (r : Relay) : Relay :=
  { r with broker := { r.broker with woken := [] }, tasks := r.broker.woken.foldl schedule r.tasks }

/-- One move of the forwarder whose turn it is. -/
def move? (r : Relay) : Option Relay :=
  match r.collect.tasks with
  | [] => none
  | id :: rest =>
    match r.collect.broker.forward? r.channel id with
    | some (b, ch) => some ⟨b, ch, id :: rest⟩
    | none => some { r.collect with tasks := rest }

/-- A bound on the moves that are left: each takes a delivery further, ends a forwarder or ends a turn. -/
def work (r : Relay) : Nat :=
  r.tasks.length + r.broker.woken.length + total (r.broker.consumers.map fun c => 2 * c.outbox.length + 2)

/-- Makes at most a number of moves. -/
def moves : Nat → Relay → Relay
  | 0, r => r
  | n + 1, r => match r.move? with
    | some r => moves n r
    | none => r

/-- Lets the forwarders move until none can. -/
def settle (r : Relay) : Relay := r.moves r.work

/-- Takes the next delivery from the channel, once the forwarders have settled. The free place is granted at
once. -/
def receive (r : Relay) : Option Delivery × Relay :=
  let r := r.settle
  match r.channel.buffer with
  | [] => (none, r)
  | d :: rest =>
    let (ids, b, ch) := r.broker.grant 0 { r.channel with buffer := rest }
    (some d, ⟨b, ch, ids.foldl schedule r.tasks⟩)

/-- Takes up to a number of deliveries. -/
def receiveUpTo : Nat → Relay → List Delivery × Relay
  | 0, r => ([], r)
  | n + 1, r =>
    match r.receive with
    | (none, r) => ([], r)
    | (some d, r) =>
      let (ds, r) := receiveUpTo n r
      (d :: ds, r)

/-- A bound on the deliveries on their way to the receiver. -/
def onTheWay (r : Relay) : Nat :=
  r.channel.buffer.length + total (r.broker.consumers.map fun c => c.outbox.length + 1)

/-- Takes a number of deliveries, or all. -/
def take (r : Relay) (count : Option Nat) : List Delivery × Relay := r.receiveUpTo (count.getD r.onTheWay)

/-- The receiver is gone; the forwarders that wait for room find out. -/
def shut (r : Relay) : Relay :=
  { r with channel := { r.channel.shut with waiting := [] }, tasks := r.channel.waiting.foldl schedule r.tasks }

end Relay

end EventCourier.Rehearsal
