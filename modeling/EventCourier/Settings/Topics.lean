import EventCourier.Settings.Environment
import EventCourier.Text.Split
import EventCourier.Topology

/-!
# Configured topics

Topics are configured as two lists, entities and events, of which every pair is meant, or as a list of pairs
written `entity.event`, or both. `read` accepts exactly lists of tokens that are not blank and hold no dot
but the one in a pair.
-/

namespace EventCourier

/-- The configured lists, in the order in which they were written. -/
structure Topics where
  entities : List String
  events : List String
  pairs : List Topic
deriving DecidableEq, Repr

namespace Topics

/-- The variable of the entities. -/
def entitiesKey : String := "METRICS_ENTITIES"

/-- The variable of the events. -/
def eventsKey : String := "METRICS_EVENTS"

/-- The variable of the pairs. -/
def pairsKey : String := "METRICS_LISTEN_TO_EVENTS"

/-- The items of a comma-separated text, trimmed. -/
def items (raw : String) : List String :=
  (splitAtAll (· == ',') raw.toList).map fun cs => String.ofList (trimChars cs)

/-- A token of a list: not blank and without dots. -/
def token (key raw token : String) : Except SettingError String :=
  if token.isEmpty then .error (.invalid key s!"empty token in '{raw}'")
  else if token.toList.contains '.' then .error (.invalid key s!"'{token}' must not contain '.'")
  else .ok token

/-- The tokens of a list. -/
def tokens (key raw : String) : Except SettingError (List String) := (items raw).mapM (token key raw)

/-- A pair: two tokens that are not blank around the only dot. -/
def pair (item : String) : Except SettingError Topic :=
  match splitAtAll (· == '.') item.toList with
  | [entity, event] =>
    if (trimChars entity).isEmpty || (trimChars event).isEmpty then invalid
    else .ok ⟨String.ofList (trimChars entity), String.ofList (trimChars event)⟩
  | _ => invalid
where
  /-- The error of an item that is no pair. -/
  invalid : Except SettingError Topic := .error (.invalid pairsKey s!"'{item}' is not of the form entity.event")

/-- Both lists or neither. -/
def lists (entities? events? : Option String) : Except SettingError (List String × List String) :=
  match entities?, events? with
  | some entities, some events => do
    let entities ← tokens entitiesKey entities
    let events ← tokens eventsKey events
    return (entities, events)
  | none, none => .ok ([], [])
  | some _, none => .error (.missing eventsKey)
  | none, some _ => .error (.missing entitiesKey)

/-- Reads the three settings, of which at least one source must be given. -/
def read (entities? events? pairs? : Option String) : Except SettingError Topics := do
  let (entities, events) ← lists entities? events?
  let pairs ← match pairs? with
    | some raw => (items raw).mapM pair
    | none => pure []
  if entities.isEmpty && pairs.isEmpty then
    .error (.invalid pairsKey s!"set {pairsKey} or both {entitiesKey} and {eventsKey}")
  else return ⟨entities, events, pairs⟩

/-- All configured topics: the pairs of the two lists and then the explicit ones. -/
def all (t : Topics) : List Topic := Topology.crossProduct t.entities t.events ++ t.pairs

/-- The topics of an environment; blank variables count as absent. -/
def ofEnvironment (env : Environment) : Except SettingError Topics :=
  read (env.nonblank? entitiesKey) (env.nonblank? eventsKey) (env.nonblank? pairsKey)

end Topics
end EventCourier
