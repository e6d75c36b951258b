import EventCourier.Broker.Interface

/-!
# The journal

What the worker reports while it runs: marks, from which the metrics are counted, and records for the log.
The states of the connection are published by marks, so the journal also tells in which order they were.
-/

namespace EventCourier

/-- The state of the connection, as readiness probes see it. -/
inductive ConnectionState where
  | disconnected
  | connecting
  | connected
  | shuttingDown
deriving DecidableEq, Repr

namespace ConnectionState

/-- The state as a word. -/
def name : ConnectionState → String
  | .disconnected => "disconnected"
  | .connecting => "connecting"
  | .connected => "connected"
  | .shuttingDown => "shutting_down"

/-- The state as a number. -/
def gauge : ConnectionState → Nat
  | .disconnected => 0
  | .connecting => 1
  | .connected => 2
  | .shuttingDown => 3

end ConnectionState

/-- Something that is counted or measured. Durations are in milliseconds. -/
inductive Mark where
  | received (routingKey : String)
  | acked (sink : String) (duration : Nat)
  | rejected (kind : String) (requeued : Bool)
  | stale
  | attempt (success : Bool)
  | lost
  | state (s : ConnectionState)
deriving DecidableEq, Repr

/-- How grave a record is. -/
inductive Level where
  | info
  | warn
  | error
deriving DecidableEq, Repr

/-- The level as a word. -/
def Level.name : Level → String
  | .info => "INFO"
  | .warn => "WARN"
  | .error => "ERROR"

/-- A value in a record. -/
inductive LogValue where
  | text (s : String)
  | number (n : Nat)
  | flag (b : Bool)
deriving DecidableEq, Repr

/-- A record of the log. -/
inductive LogRecord where
  | serviceStarting (name version : String)
  | configurationLoaded (broker vhost : String) (queues : Nat) (bucket index : String) (policy : RejectPolicy)
  | attemptFailed (attempt maxAttempts : Nat) (error : WorkerError)
  | topologyUnusable (error : WorkerError)
  | sessionLost (notice : Notice)
  | messageFailed (error : WorkerError) (requeue redelivered : Bool) (body : String)
  | resolveFailed (tag : Tag) (outcome : Outcome) (error : WorkerError)
  | workerFailed (worker : String) (error : WorkerError)
  | writeFailed (status reason : String)
  | documentRejected (status reason : String)
deriving DecidableEq, Repr

namespace LogRecord

/-- The level of a record. -/
def level : LogRecord → Level
  | .serviceStarting .. | .configurationLoaded .. => .info
  | .topologyUnusable _ | .messageFailed .. | .workerFailed .. => .error
  | _ => .warn

/-- What a record says. -/
def message : LogRecord → String
  | .serviceStarting .. => "Starting metrics worker service"
  | .configurationLoaded .. => "Configuration loaded"
  | .attemptFailed .. => "Connection attempt failed"
  | .topologyUnusable _ => "Broker topology is not usable"
  | .sessionLost _ => "Broker session lost"
  | .messageFailed .. => "Failed to process message"
  | .resolveFailed .. => "Failed to resolve delivery"
  | .workerFailed .. => "Worker failed"
  | .writeFailed .. => "InfluxDB write failed"
  | .documentRejected .. => "Elasticsearch rejected document"

/-- The values that go with a record. -/
def fields : LogRecord → List (String × LogValue)
  | .serviceStarting name version => [("name", .text name), ("version", .text version)]
  | .configurationLoaded broker vhost queues bucket index policy =>
    [("broker", .text broker), ("vhost", .text vhost), ("queues", .number queues),
      ("influx_bucket", .text bucket), ("elasticsearch_index", .text index), ("reject_policy", .text policy.name)]
  | .attemptFailed attempt maxAttempts error =>
    [("attempt", .number attempt), ("max_attempts", .number maxAttempts), ("error", .text error.message)]
  | .topologyUnusable error => [("error", .text error.message)]
  | .sessionLost notice => [("generation", .number notice.generation), ("reason", .text notice.reason)]
  | .messageFailed error requeue redelivered body =>
    [("error", .text error.message), ("kind", .text error.kind), ("category", .text error.category.name),
      ("requeue", .flag requeue), ("redelivered", .flag redelivered), ("payload", .text body)]
  | .resolveFailed tag outcome error =>
    [("delivery_tag", .text tag.text), ("outcome", .text outcome.text), ("error", .text error.message)]
  | .workerFailed worker error =>
    [("worker", .text worker), ("error", .text error.message), ("kind", .text error.kind)]
  | .writeFailed status reason => [("status", .text status), ("reason", .text reason)]
  | .documentRejected status reason => [("status", .text status), ("reason", .text reason)]

end LogRecord

/-- Marks and records, in order. -/
structure Journal where
  marks : List Mark
  records : List LogRecord
deriving DecidableEq, Repr

namespace Journal

/-- A journal without entries. -/
def empty : Journal := ⟨[], []⟩

/-- Adds a mark. -/
def mark (j : Journal) (m : Mark) : Journal := { j with marks := j.marks ++ [m] }

/-- Adds a record. -/
def record (j : Journal) (r : LogRecord) : Journal := { j with records := j.records ++ [r] }

/-- A journal and the entries of a later one. -/
def append (j k : Journal) : Journal := ⟨j.marks ++ k.marks, j.records ++ k.records⟩

/-- The states that were published, in order. -/
def states (j : Journal) : List ConnectionState :=
  j.marks.filterMap fun m => match m with
    | .state s => some s
    | _ => none

end Journal
end EventCourier
