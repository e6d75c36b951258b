import EventCourier.Broker.Memory

/-!
# Channels

The bounded channel between the consumers of a receiver and the receiver itself. Forwarders that find it
full wait for room and are served first come, first served: room that becomes free is granted to the first
of them, which then delivers what it has in hand. When the receiver is gone, forwarders end as soon as they
have something to deliver.
-/

namespace EventCourier

/-- Deliveries on their way to a receiver, and the consumers whose forwarders wait for room. -/
structure Channel where
  capacity : Nat
  buffer : List Delivery
  waiting : List Nat
  isOpen : Bool
deriving DecidableEq, Repr

namespace Channel

/-- An empty channel. -/
def empty (capacity : Nat) : Channel := ⟨capacity, [], [], true⟩

/-- The channel of a receiver that is gone: what it held is lost. -/
def shut (ch : Channel) : Channel := { ch with buffer := [], isOpen := false }

/-- True of a forwarder that has been granted room. -/
def holdsGrant (c : Consumer) : Bool :=
  match c.forwarder with
  | .waiting _ granted => granted
  | _ => false

/-- How many places of a receiver's channel are granted but not yet used. -/
def granted (receiver : Nat) (b : Broker) : Nat :=
  b.consumers.countP fun c => c.receiver == receiver && holdsGrant c

/-- True if a place of the channel is neither used nor granted. -/
def hasRoom (ch : Channel) (receiver : Nat) (b : Broker) : Bool :=
  decide (ch.buffer.length + granted receiver b < ch.capacity)

end Channel

namespace Broker

/-- The broker with another state of a consumer. -/
def setConsumer (b : Broker) (c : Consumer) : Broker :=
  { b with consumers := b.consumers.map fun k => if k.id = c.id then c else k }

/-- The consumer with an identifier. -/
def consumer? (b : Broker) (id : Nat) : Option Consumer := b.consumers.find? fun c => c.id == id

/-- One move of a forwarder: it delivers, starts to wait for room, or ends. None if it has nothing to do. -/
def forward? (b : Broker) (ch : Channel) (id : Nat) : Option (Broker × Channel) := do
  let c ← b.consumer? id
  let ended : Broker × Channel := (b.setConsumer { c with forwarder := .ended, outbox := [] }, ch)
  match c.forwarder, c.outbox with
  | .waiting d isGranted, _ =>
    if !ch.isOpen then some ended
    else if isGranted then
      some (b.setConsumer { c with forwarder := .idle }, { ch with buffer := ch.buffer ++ [d] })
    else none
  | .idle, d :: rest =>
    if !ch.isOpen then some ended
    else if ch.hasRoom c.receiver b then
      some (b.setConsumer { c with outbox := rest }, { ch with buffer := ch.buffer ++ [d] })
    else
      some (b.setConsumer { c with outbox := rest, forwarder := .waiting d false },
        { ch with waiting := ch.waiting ++ [id] })
  | _, _ => none

/-- Grants free places to the forwarders that wait, in turn; those of sessions that have ended are passed
over. The result also names the forwarders that were granted a place. -/
def grantTo (receiver : Nat) : List Nat → Broker → Channel → List Nat × Broker × Channel
  | [], b, ch => ([], b, { ch with waiting := [] })
  | id :: rest, b, ch =>
    match b.consumer? id with
    | none => grantTo receiver rest b ch
    | some c =>
      match c.forwarder with
      | .waiting d false =>
        if ch.hasRoom receiver b then
          let (ids, b, ch) := grantTo receiver rest (b.setConsumer { c with forwarder := .waiting d true }) ch
          (id :: ids, b, ch)
        else ([], b, { ch with waiting := id :: rest })
      | _ => grantTo receiver rest b ch

/-- Grants what room there is. -/
def grant (receiver : Nat) (b : Broker) (ch : Channel) : List Nat × Broker × Channel :=
  grantTo receiver ch.waiting b ch

end Broker
end EventCourier
