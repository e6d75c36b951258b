import EventCourier.Http.Status
import EventCourier.Json.Basic
import EventCourier.Metrics

/-!
# Health

Answers to probes: the service is alive while it answers at all, and ready only while it is connected. The
metrics can be fetched once they are counted.
-/

namespace EventCourier.Health

/-- What is known when a probe comes: who answers, the state of the connection, and the lines of the
metrics, if they are counted. -/
structure Standing where
  name : String
  version : String
  state : ConnectionState
  metrics : Option (List String)
deriving DecidableEq, Repr

/-- An answer to a probe. -/
structure Answer where
  status : Http.Status
  contentType : Option String
  body : String
deriving DecidableEq, Repr

/-- What can be asked for. -/
inductive Probe where
  | alive
  | ready
  | metrics
deriving DecidableEq, Repr

/-- The probe at a path. -/
def probe? (path : String) : Option Probe :=
  if path = "/health" ∨ path = "/healthz" then some .alive
  else if path = "/ready" ∨ path = "/readyz" then some .ready
  else if path = "/metrics" then some .metrics
  else none

/-- The answer without content. -/
def nothing (code : Nat) : Answer := ⟨⟨code⟩, none, ""⟩

/-- Members of an object, in the order given. -/
def members (ms : List (String × List Char)) : String :=
  String.ofList ('\x7b' :: (",".toList.intercalate (ms.map fun m => Json.quote m.1 ++ ':' :: m.2)) ++ ['\x7d'])

/-- True if the service can take deliveries. -/
def isReady (s : ConnectionState) : Bool := decide (s = .connected)

/-- The answer to a probe. -/
def respond (s : Standing) : Probe → Answer
  | .alive =>
    ⟨⟨200⟩, some "application/json",
      members
        [("status", Json.quote "healthy"), ("name", Json.quote s.name), ("version", Json.quote s.version)]⟩
  | .ready =>
    let checks : Json := .object [("rabbitmq", .string s.state.name)]
    let status := if isReady s.state then "ready" else "not_ready"
    ⟨⟨if isReady s.state then 200 else 503⟩, some "application/json",
      Json.render (.object [("checks", checks), ("status", .string status)])⟩
  | .metrics =>
    match s.metrics with
    | some lines => ⟨⟨200⟩, some "text/plain; charset=utf-8", String.join (lines.map (· ++ "\n"))⟩
    | none =>
      ⟨⟨503⟩, some "text/plain; charset=utf-8",
        "Metrics not initialized. Call metrics::init_metrics() at startup."⟩

/-- The path of a request target, without its query. -/
def path (target : String) : String := String.ofList (target.toList.takeWhile fun c => c ≠ '?' ∧ c ≠ '#')

/-- The answer to a request. Probes are only fetched; asking for the head alone leaves the body out. -/
def answer (s : Standing) (method target : String) : Answer :=
  match probe? (path target) with
  | none => nothing 404
  | some p =>
    if method = "GET" then respond s p
    else if method = "HEAD" then { respond s p with body := "" }
    else nothing 405

end EventCourier.Health
