import EventCourier.Settings.Environment
import EventCourier.Text.Percent

/-!
# Endpoints

Where the broker, the two backends and the health server are found, and how their addresses are written.
-/

namespace EventCourier

/-- A host and a port as one text. -/
def address (host : String) (port : Nat) : String := host ++ ":" ++ toString port

/-- Ports are below 2^16. -/
def portLimit : Nat := 0x10000

/-- A text without the slashes at its end. -/
def trimSlashes (s : String) : String := String.ofList (s.toList.reverse.dropWhile (· = '/')).reverse

/-- Where the broker is found and who connects to it. -/
structure BrokerEndpoint where
  host : String
  port : Nat
  username : String
  password : String
  vhost : String
deriving DecidableEq, Repr

namespace BrokerEndpoint

/-- The endpoint of a host with the credentials that brokers start with. -/
def guest (host : String) (port : Nat) : BrokerEndpoint := ⟨host, port, "guest", "guest", "/"⟩

/-- The endpoint as a URI, with every part that may hold separators percent-encoded. -/
def uri (e : BrokerEndpoint) : String :=
  "amqp://" ++ Percent.encode e.username ++ ":" ++ Percent.encode e.password ++ "@" ++ e.host ++ ":" ++
    toString e.port ++ "/" ++ Percent.encode e.vhost

/-- The endpoint without credentials. -/
def address (e : BrokerEndpoint) : String := EventCourier.address e.host e.port

/-- The endpoint of an environment. -/
def ofEnvironment (env : Environment) : Except SettingError BrokerEndpoint := do
  let host ← env.require "RABBITMQ_HOST"
  let port ← env.parsed (readNumber portLimit) "RABBITMQ_PORT" 5672
  return ⟨host, port, env.getOr "RABBITMQ_USERNAME" "guest", env.getOr "RABBITMQ_PASSWORD" "guest",
    env.getOr "RABBITMQ_VHOST" "/"⟩

end BrokerEndpoint

/-- Where points are written. -/
structure InfluxEndpoint where
  url : String
  token : String
  org : String
  bucket : String
deriving DecidableEq, Repr

/-- The endpoint of an environment. -/
def InfluxEndpoint.ofEnvironment (env : Environment) : Except SettingError InfluxEndpoint := do
  let url ← env.require "INFLUXDB_URL"
  let token ← env.require "INFLUXDB_TOKEN"
  return ⟨trimSlashes url, token, env.getOr "INFLUXDB_ORG" "shrtr", env.getOr "INFLUXDB_BUCKET" "reporting"⟩

/-- Where documents are indexed. -/
structure ElasticsearchEndpoint where
  url : String
  index : String
  username : Option String
  password : Option String
deriving DecidableEq, Repr

namespace ElasticsearchEndpoint

/-- The index used unless another is configured. -/
def standardIndex : String := "events"

/-- User name and password, if a user name is configured. -/
def credentials? (e : ElasticsearchEndpoint) : Option (String × Option String) :=
  e.username.map fun user => (user, e.password)

/-- The endpoint of an environment. -/
def ofEnvironment (env : Environment) : Except SettingError ElasticsearchEndpoint := do
  let url ← env.require "ELASTICSEARCH_URL"
  return ⟨trimSlashes url, env.getOr "ELASTICSEARCH_INDEX" standardIndex,
    env.nonblank? "ELASTICSEARCH_USERNAME", env.nonblank? "ELASTICSEARCH_PASSWORD"⟩

end ElasticsearchEndpoint

/-- Where health requests are answered. -/
structure ServerEndpoint where
  host : String
  port : Nat
deriving DecidableEq, Repr

namespace ServerEndpoint

/-- All interfaces, at the usual port. -/
def standard : ServerEndpoint := ⟨"0.0.0.0", 8083⟩

/-- The endpoint as one text. -/
def address (e : ServerEndpoint) : String := EventCourier.address e.host e.port

/-- The endpoint of an environment. -/
def ofEnvironment (env : Environment) : Except SettingError ServerEndpoint := do
  let port ← env.parsed (readNumber portLimit) "HEALTH_PORT" standard.port
  return ⟨env.getOr "HEALTH_HOST" standard.host, port⟩

end ServerEndpoint
end EventCourier
