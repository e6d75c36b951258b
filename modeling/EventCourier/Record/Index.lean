import EventCourier.Record.Document
import EventCourier.Record.Write

/-!
# Indexing documents

How a document is indexed for search: one request with its JSON text. When a request may succeed later is
decided as for writes.
-/

namespace EventCourier
namespace ElasticsearchEndpoint

/-- Where documents are indexed: the name of the index is one path segment. -/
def indexUrl (e : ElasticsearchEndpoint) : String :=
  trimSlashes e.url ++ "/" ++ Percent.encode e.index ++ "/_doc"

/-- The request that indexes a document. -/
def request (read : Http.UrlReading) (e : ElasticsearchEndpoint) (d : Document) :
    Except Http.SendFailure Http.Request :=
  Http.Request.post read e.indexUrl
    (("Content-Type", "application/json") ::
      (e.credentials?.map fun c => Http.basicAuthorization c.1 c.2).toList)
    d.render

/-- Why a document was refused: the reason or else the type that a JSON body gives as its error, an error in
words, or the whole body. -/
def reason (body : String) : String :=
  match Json.Reader.read body.toList with
  | .ok (.object members) => match Dictionary.get? "error" members with
    | some (.object error) => match Dictionary.get? "reason" error, Dictionary.get? "type" error with
      | some (.string s), _ => s
      | _, some (.string s) => s
      | _, _ => body
    | some (.string s) => s
    | _ => body
  | _ => body

/-- What an answer to a request means. -/
def conclude (r : Http.Response) : Stored :=
  if r.status.isSuccess then (.ok (), [])
  else
    let reason := reason r.text
    (.error (if r.status.mayRecover then .unavailable reason else .rejected reason),
      [.documentRejected r.status.text reason])

/-- Indexes a document through a client: what came of it, and the requests that were sent. -/
def indexAt (client : Http.Client) (e : ElasticsearchEndpoint) (d : Document) : Stored × List Http.Request :=
  match Http.exchange client.send (e.request client.read d) with
  | (.ok r, sent) => (conclude r, sent)
  | (.error failure, sent) =>
    ((.error (.unavailable ("Elasticsearch request failed: " ++ failure.message)), []), sent)

/-- Indexes a document, given the answer to the request. -/
def indexDocument (e : ElasticsearchEndpoint) (d : Document) (answer : Option Http.Response) : Stored :=
  (indexAt (.plain fun _ => answer) e d).1

/-! ## Examples -/

example : reason "\x7b\"error\":\x7b\"type\":\"parse\",\"reason\":\"no date\"\x7d\x7d" = "no date" := by cbv

example : reason "\x7b\"error\":\x7b\"type\":\"parse\"\x7d\x7d" = "parse" := by cbv

example : reason "\x7b\"error\":\"no such index\"\x7d" = "no such index" := by cbv

example : reason "out of order" = "out of order" := by cbv

end ElasticsearchEndpoint
end EventCourier
