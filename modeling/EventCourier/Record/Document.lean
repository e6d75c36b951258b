import EventCourier.Delivery

/-!
# Event documents

The document stored for every event but redirects: entity, type and time of receipt beside the payload as it
came.
-/

namespace EventCourier

/-- The document of an event. -/
structure Document where
  entity : String
  eventType : String
  receivedAt : Instant
  data : Payload

/-- The document that stores an event. -/
def Document.ofEvent (e : Event) : Document := ⟨e.entity, e.eventType, e.receivedAt, e.payload⟩

/-- The JSON text of a document, its members in the order of the fields. -/
def Document.chars (d : Document) : List Char :=
  '\x7b' :: (Json.quote "entity" ++ ':' :: Json.quote d.entity ++ ',' :: Json.quote "type" ++ ':' ::
    Json.quote d.eventType ++ ',' :: Json.quote "received_at" ++ ':' :: Json.quote d.receivedAt.rfc3339Zulu ++
    ',' :: Json.quote "data" ++ ':' :: d.data.chars ++ ['\x7d'])

/-- The JSON text of a document. -/
def Document.render (d : Document) : String := String.ofList d.chars

end EventCourier
