import EventCourier.Dictionary
import EventCourier.Text.Blank
import EventCourier.Text.Lower

/-!
# Routing

A router maps routing keys, whatever their case, to sinks. A key without a route goes to the fallback, so
every event has somewhere to land.
-/

namespace EventCourier

/-- Routes by lower-cased key and the sink of all other keys. -/
structure Router (α : Type) where
  routes : Dictionary α
  fallback : α

namespace Router

variable {α : Type}

/-- A router that sends everything to one sink. -/
def only (fallback : α) : Router α := ⟨[], fallback⟩

/-- Sends a key to a sink, over an earlier route of that key. -/
def route (r : Router α) (key : String) (sink : α) : Router α :=
  { r with routes := r.routes.insert (lower (trim key)) sink }

/-- The sink of a key. -/
def select (r : Router α) (key : String) : α := (r.routes.get? (lower key)).getD r.fallback

/-- The routing key of redirects. -/
def redirectKey : String := "link.redirected"

/-- Redirects go to the time series, everything else to the documents. -/
def forEvents (timeSeries documents : α) : Router α := (only documents).route redirectKey timeSeries

end Router
end EventCourier
