import EventCourier.Proofs.Payload
import EventCourier.Record.Document

/-!
# What is indexed is what was received

The text of an event's document is that of an object with four members (`chars_toJson`), which are read as a
dictionary; so a payload goes through unchanged, beside entity, type and time (`indexed_as_received`).
-/

namespace EventCourier
namespace Document

/-- The members of a document in the order in which they are written. -/
def members (d : Document) : List (String × Json) :=
  [("entity", .string d.entity), ("type", .string d.eventType),
    ("received_at", .string d.receivedAt.rfc3339Zulu), ("data", d.data.toJson)]

/-- The text of a document is that of an object. -/
theorem chars_members (d : Document) : Json.chars (.object d.members) = d.chars := by
  simp [members, Json.chars_object_cons, Json.membersChars, Json.chars_string, Document.chars,
    Payload.chars_toJson]

/-- The members of a document by key. -/
theorem ofList_members (d : Document) : Dictionary.ofList d.members =
    [("data", d.data.toJson), ("entity", .string d.entity),
      ("received_at", .string d.receivedAt.rfc3339Zulu), ("type", .string d.eventType)] := by
  have h1 : ¬"type" < "entity" ∧ "type" ≠ "entity" := by decide
  have h2 : ¬"received_at" < "entity" ∧ "received_at" ≠ "entity" ∧ "received_at" < "type" := by decide
  have h3 : "data" < "entity" := by decide
  simp [members, Dictionary.ofList, Dictionary.insert, h1, h2, h3]

/-- The text of a document is decoded to its four members, if the payload in it nests no deeper than the limit
of one container less. -/
theorem decode_render_document {d : Document} (hordered : d.data.toJson.Ordered) (hreal : d.data.hasReal = false)
    (hdepth : d.data.depth ≤ 126) :
    Payload.decode (Utf8.encode d.render) = .ok (.object [("data", d.data), ("entity", .string d.entity),
      ("received_at", .string d.receivedAt.rfc3339Zulu), ("type", .string d.eventType)]) := by
  have htext : ∀ s : String, Json.Reader.Reads (Json.Reader.value 126) (.string s) := fun s =>
    Json.Reader.reads_of_ordered (.string s) rfl (Nat.zero_le _)
  have hmembers : ∀ m ∈ d.members, Json.Reader.Reads (Json.Reader.value 126) m.2 := by
    simp only [members, List.forall_mem_cons]
    exact ⟨htext _, htext _, htext _, Json.Reader.reads_of_ordered hordered hreal hdepth, nofun⟩
  have hread := Json.Reader.valueWith_object hmembers []
  rw [List.append_nil, chars_members, ofList_members] at hread
  rw [render, Payload.decode_encode (Json.Reader.read_of_value hread)]
  simp [Payload.ofJson, Payload.ofMembers, Payload.ofJson_toJson]

end Document

/-! ## The main result -/

/-- **What is indexed is what was received.** A payload that was decoded from a body and holds no double is
decoded from its text again, so that no two of them have the same text. If it nests no deeper than a document
leaves room for, the document of every event that carries it is decoded to an object with four members: entity,
type and time of the event, and the payload as it is. -/
theorem indexed_as_received {body : List UInt8} {p : Payload} (h : Payload.decode body = .ok p)
    (hreal : p.hasReal = false) :
    Payload.decode (Utf8.encode p.render) = .ok p ∧
      (∀ (body' : List UInt8) (q : Payload), Payload.decode body' = .ok q → q.hasReal = false →
        q.render = p.render → q = p) ∧
      (p.depth ≤ 126 → ∀ e : Event, e.payload = p →
        Payload.decode (Utf8.encode (Document.ofEvent e).render) =
          .ok (.object [("data", p), ("entity", .string e.entity),
            ("received_at", .string e.receivedAt.rfc3339Zulu), ("type", .string e.eventType)])) := by
  have hagain := Payload.decode_render h hreal
  refine ⟨hagain, fun body' q hq hqreal htext => ?_, ?_⟩
  · have hq' := Payload.decode_render hq hqreal
    rw [htext, hagain] at hq'
    exact (Except.ok.inj hq').symm
  · rintro hdepth e rfl
    exact Document.decode_render_document (d := .ofEvent e) (Payload.decode_spec h).1 hreal hdepth

/-! ## A body with escapes and bounds -/

/-- An object whose keys are not in order and one of them given twice, with the least and the greatest integer
and a text of escapes. -/
def nestedText : String :=
  "\x7b\"b\": [-9223372036854775808, 18446744073709551615], \"a\": 0, \"a\": \"\\ud83d\\ude00\\u0001\"\x7d"

/-- The payload of that object. -/
def nestedPayload : Payload :=
  .object [("a", .string "😀\x01"), ("b", .array [.number (.integer (-9223372036854775808) (by decide) (by decide)),
    .number (.integer 18446744073709551615 (by decide) (by decide))])]

/-- An event that carries the payload. -/
def nestedEvent : Event := ⟨"link", "created", "link.created", ⟨0, 0⟩, nestedPayload⟩

theorem decode_nestedText : Payload.decode (Utf8.encode nestedText) = .ok nestedPayload := by
  have hread : Json.Reader.read nestedText.toList = .ok nestedPayload.toJson :=
    Json.Reader.read_of_same (by decide +kernel)
  simpa [Payload.ofJson_toJson] using Payload.decode_encode hread

theorem indexed_as_received_nested :
    Payload.decode (Utf8.encode nestedText) = .ok nestedPayload ∧ nestedPayload.hasReal = false ∧
      Payload.decode (Utf8.encode nestedPayload.render) = .ok nestedPayload ∧
      Payload.decode (Utf8.encode (Document.ofEvent nestedEvent).render) =
        .ok (.object [("data", nestedPayload), ("entity", .string "link"),
          ("received_at", .string nestedEvent.receivedAt.rfc3339Zulu), ("type", .string "created")]) :=
  have hreal : nestedPayload.hasReal = false := by decide
  have hall := indexed_as_received decode_nestedText hreal
  ⟨decode_nestedText, hreal, hall.1, hall.2.2 (by decide) nestedEvent rfl⟩

end EventCourier
