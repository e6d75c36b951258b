import EventCourier.Settings.Endpoints
import EventCourier.Settings.Topics
import EventCourier.Settings.Worker

/-!
# Settings at startup

Everything the service reads before it starts. The first part that cannot be read decides the error.
-/

namespace EventCourier

/-- Whether the service runs for real. -/
inductive Mode where
  | production
  | development
deriving DecidableEq, Repr

namespace Mode

/-- The mode as a word. -/
def name : Mode → String
  | .production => "Production"
  | .development => "Development"

/-- The small form of an ASCII letter. -/
def asciiLower (c : Char) : Char := if 'A' ≤ c ∧ c ≤ 'Z' then Char.ofNat (c.toNat + 32) else c

/-- Production must be asked for, in any case of ASCII letters. -/
def ofEnvironment (env : Environment) : Mode :=
  match env.get? "APP_ENV" with
  | some s => if s.toList.map asciiLower = "production".toList then .production else .development
  | none => .development

end Mode

/-- All settings of the service. -/
structure Settings where
  broker : BrokerEndpoint
  influx : InfluxEndpoint
  elasticsearch : ElasticsearchEndpoint
  topics : Topics
  worker : WorkerSettings
  server : ServerEndpoint
deriving DecidableEq, Repr

/-- The settings of an environment. -/
def Settings.ofEnvironment (env : Environment) : Except SettingError Settings := do
  let broker ← BrokerEndpoint.ofEnvironment env
  let influx ← InfluxEndpoint.ofEnvironment env
  let elasticsearch ← ElasticsearchEndpoint.ofEnvironment env
  let topics ← Topics.ofEnvironment env
  let worker ← WorkerSettings.ofEnvironment env
  let server ← ServerEndpoint.ofEnvironment env
  return ⟨broker, influx, elasticsearch, topics, worker, server⟩

end EventCourier
