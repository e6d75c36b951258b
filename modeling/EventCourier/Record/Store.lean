import EventCourier.Pipeline
import EventCourier.Record.Index
import EventCourier.Record.Redirect

/-!
# Storing events

The two sinks of the service: redirects become points of a time series, and every event can become a
document. What they ask of their backends is a `StoreRequest`. `persistAt` stores one event through the clients of the
backends, and keeps what was sent beside what came of it.
-/

namespace EventCourier

/-- The two backends of the service. -/
inductive Store where
  | timeSeries
  | documents
deriving DecidableEq, Repr

/-- What a sink asks of its backend. -/
inductive StoreRequest where
  | write (points : List Point)
  | index (document : Document)

namespace StoreRequest

/-- The sink that writes redirects as points. -/
def timeSeries : Sink StoreRequest where
  name := "influxdb"
  request e := match Redirect.pointOfEvent e with
    | .ok p => .ok (.write [p])
    | .error fault => .error fault

/-- The sink that indexes events as documents. -/
def documents : Sink StoreRequest where
  name := "elasticsearch"
  request e := .ok (.index (.ofEvent e))

/-- Redirects are written as points, all other events are indexed. -/
def router : Router (Sink StoreRequest) := .forEvents timeSeries documents

/-- Makes a request of the backend it is for: what came of it, and what was sent for which backend. -/
def performAt (clients : Store → Http.Client) (influx : InfluxEndpoint) (elasticsearch : ElasticsearchEndpoint) :
    StoreRequest → Stored × List (Store × Http.Request)
  | .write points =>
    let done := influx.writeAt (clients .timeSeries) points
    (done.1, done.2.map (.timeSeries, ·))
  | .index document =>
    let done := elasticsearch.indexAt (clients .documents) document
    (done.1, done.2.map (.documents, ·))

/-- Stores an event: the sink of its routing key makes a request of its backend, if it has one to make. -/
def persistAt (clients : Store → Http.Client) (influx : InfluxEndpoint) (elasticsearch : ElasticsearchEndpoint)
    (e : Event) : Stored × List (Store × Http.Request) :=
  match (router.select e.routingKey).request e with
  | .ok q => q.performAt clients influx elasticsearch
  | .error fault => ((.error fault, []), [])

/-- Stores an event at servers that requests are sent to once. -/
def persist (servers : Store → Http.Server) (influx : InfluxEndpoint) (elasticsearch : ElasticsearchEndpoint)
    (e : Event) : Stored × List (Store × Http.Request) :=
  persistAt (fun store => .plain (servers store)) influx elasticsearch e

end StoreRequest
end EventCourier
