import EventCourier.Text.Blank
import EventCourier.Text.Lower

/-!
# Topology

Every topic, an entity and an event, becomes one binding of a queue to the exchange of its entity. `resolve`
normalizes topics and returns the bindings of the distinct ones in increasing order.
-/

namespace EventCourier

/-- An entity and an event that happens to it. -/
structure Topic where
  entity : String
  event : String
deriving DecidableEq, Repr

/-- A queue bound to an exchange for one routing key. -/
structure Binding where
  exchange : String
  queue : String
  routingKey : String
deriving DecidableEq, Repr

namespace Topic

/-- The order of topics, by entity and then by event. -/
def before (a b : Topic) : Bool := decide (a.entity < b.entity ∨ (a.entity = b.entity ∧ a.event < b.event))

/-- Puts a topic into an increasing list, unless it is there. -/
def insert (t : Topic) : List Topic → List Topic
  | [] => [t]
  | u :: us => if t = u then u :: us else if t.before u then t :: u :: us else u :: insert t us

/-- The binding of a topic. -/
def binding (t : Topic) : Binding :=
  ⟨t.entity, t.entity ++ "-" ++ t.event ++ "-queue", t.entity ++ "." ++ t.event⟩

end Topic

namespace Topology

/-- A token without white space at the ends and in lower case; none if nothing is left. -/
def normalize? (token : String) : Option String :=
  let t := trim token
  if t.isEmpty then none else some (lower t)

/-- A topic with both tokens normalized. -/
def normalizeTopic? (t : Topic) : Option Topic := do
  let entity ← normalize? t.entity
  let event ← normalize? t.event
  return ⟨entity, event⟩

/-- The distinct normalized topics, increasing. -/
def normalized (topics : List Topic) : List Topic :=
  (topics.filterMap normalizeTopic?).foldl (fun ts t => t.insert ts) []

/-- The bindings of a list of topics. -/
def resolve (topics : List Topic) : List Binding := (normalized topics).map Topic.binding

/-- All pairs of an entity and an event. -/
def crossProduct (entities events : List String) : List Topic :=
  entities.flatMap fun entity => events.map fun event => ⟨entity, event⟩

/-- The distinct exchanges of a list of bindings, in its order. -/
def exchanges (bindings : List Binding) : List String := (bindings.map (·.exchange)).eraseDups

end Topology
end EventCourier
