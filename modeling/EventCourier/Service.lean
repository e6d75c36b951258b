import EventCourier.Record.Store
import EventCourier.Settings.Startup
import EventCourier.Worker

/-!
# The service

The service reads its settings, starts a worker on the bindings of its topics and runs until the worker
stops. It fails if the settings cannot be used or the worker stops with an error; `ServiceError.chain` tells
both from the outside in.
-/

namespace EventCourier

/-- Why the service fails. -/
inductive ServiceError where
  | settings (e : SettingError)
  | worker (e : WorkerError)
deriving DecidableEq, Repr

/-- What failed, and the cause of it. -/
def ServiceError.chain : ServiceError → List String
  | .settings e => ["Failed to load configuration", e.message]
  | .worker e => ["Metrics worker stopped with a fatal error", e.message]

namespace Service

/-- The name under which the service, its worker and its consumers go. -/
def name : String := "metrics-worker"

/-- The version of the service. -/
def version : String := "0.1.0"

/-- The worker that settings ask for, about to run. -/
def worker {β : Type} (s : Settings) (broker : β) (clock : Instant) : Worker β StoreRequest :=
  .start name StoreRequest.router (Topology.resolve s.topics.all) (s.worker.workerConfig name) broker clock

/-- What is recorded of settings that can be used. -/
def loaded (s : Settings) : LogRecord :=
  .configurationLoaded s.broker.address s.broker.vhost (Topology.resolve s.topics.all).length s.influx.bucket
    s.elasticsearch.index s.worker.rejectPolicy

/-- The worker after at most a number of steps, when its pauses are waited for and nothing else happens. -/
def drive {β ρ : Type} (api : BrokerApi β) : Nat → Worker β ρ → Worker β ρ
  | 0, w => w
  | n + 1, w =>
    match w.step? api with
    | some w => drive api n w
    | none => match w.activity with
      | .connecting _ => drive api n w.resume
      | _ => w

/-- Runs the service while nothing but its own attempts to connect happens: how it fails, if it does, and
its journal. -/
def run {β : Type} (api : BrokerApi β) (broker : β) (clock : Instant) (env : Environment) :
    Option ServiceError × Journal :=
  let j := Journal.empty.record (.serviceStarting name version)
  match Settings.ofEnvironment env with
  | .error e => (some (.settings e), j)
  | .ok s =>
    let w := drive api (3 * s.worker.maxAttempts + 3) (worker s broker clock)
    let j := (j.record (loaded s)).append w.connection.journal
    match w.result? with
    | some (.error e) => (some (.worker e), j)
    | _ => (none, j)

/-- The records that are written for other programs to read: none unless the service runs for real. -/
def published (env : Environment) (j : Journal) : List LogRecord :=
  match Mode.ofEnvironment env with
  | .production => j.records
  | .development => []

end Service
end EventCourier
