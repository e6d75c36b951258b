import EventCourier.Http.Basic
import EventCourier.Journal
import EventCourier.Record.Point
import EventCourier.Settings.Endpoints

/-!
# Writing points

How points are written to the time series: one request with a line for each point. A write that was not
accepted may be accepted later if the server failed or asks for fewer requests, or if there was no answer at
all.
-/

namespace EventCourier

/-- What came of a request to a backend, and what is recorded of it. -/
abbrev Stored := Except SinkError Unit × List LogRecord

namespace InfluxEndpoint

/-- Where points are written: the names go into the query. -/
def writeUrl (e : InfluxEndpoint) : String :=
  trimSlashes e.url ++ "/api/v2/write?org=" ++ Percent.encode e.org ++ "&bucket=" ++ Percent.encode e.bucket ++
    "&precision=ns"

/-- The request that writes points. -/
def request (read : Http.UrlReading) (e : InfluxEndpoint) (points : List Point) :
    Except Http.SendFailure Http.Request :=
  Http.Request.post read e.writeUrl
    [("Authorization", "Token " ++ e.token), ("Content-Type", "text/plain; charset=utf-8")]
    (Point.lines points)

/-- Why a write was refused: the message of a JSON body, or the whole body. -/
def reason (body : String) : String :=
  match Json.Reader.read body.toList with
  | .ok (.object members) => match Dictionary.get? "message" members with
    | some (.string s) => s
    | _ => body
  | _ => body

/-- What an answer to a write means. -/
def conclude (r : Http.Response) : Stored :=
  if r.status.isSuccess then (.ok (), [])
  else
    let reason := reason r.text
    let text := "InfluxDB returned " ++ r.status.text ++ ": " ++ reason
    (.error (if r.status.mayRecover then .unavailable text else .rejected text),
      [.writeFailed r.status.text reason])

/-- Writes points through a client: what came of it, and the requests that were sent. Without points there is nothing
to ask for. -/
def writeAt (client : Http.Client) (e : InfluxEndpoint) (points : List Point) : Stored × List Http.Request :=
  if points.isEmpty then ((.ok (), []), [])
  else match Http.exchange client.send (e.request client.read points) with
    | (.ok r, sent) => (conclude r, sent)
    | (.error failure, sent) =>
      ((.error (.unavailable ("InfluxDB request failed: " ++ failure.message)), []), sent)

/-- Writes points, given the answer to the request. -/
def writePoints (e : InfluxEndpoint) (points : List Point) (answer : Option Http.Response) : Stored :=
  (writeAt (.plain fun _ => answer) e points).1

/-! ## Examples -/

example : reason "\x7b\"code\":\"internal\",\"message\":\"full\"\x7d" = "full" := by cbv

example : reason "\x7b\"message\":1\x7d" = "\x7b\"message\":1\x7d" := by cbv

/-- Too many requests: the same write may be accepted later. -/
example : conclude ⟨⟨429⟩, none⟩ =
    (.error (.unavailable "InfluxDB returned 429 Too Many Requests: "),
      [.writeFailed "429 Too Many Requests" ""]) := by
  cbv

/-- A bad request stays bad. -/
example : (conclude ⟨⟨400⟩, some []⟩).1 = .error (.rejected "InfluxDB returned 400 Bad Request: ") := by cbv

end InfluxEndpoint
end EventCourier
