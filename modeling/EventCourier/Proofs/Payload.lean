import EventCourier.Payload
import EventCourier.Proofs.Json.Values
import EventCourier.Proofs.Text.Utf8

/-!
# Payloads are decoded back

A payload and its document hold the same data (`ofJson_toJson`, `toJson_ofJson`) and have the same text
(`chars_toJson`). So what holds of documents that are read and written holds of payloads that are decoded and
rendered: `decode_spec` says what shape they have, `decode_render` that their text is decoded to them.
-/

namespace EventCourier.Payload

/-! ## Payloads as documents -/

mutual

theorem ofJson_toJson : ∀ p : Payload, ofJson p.toJson = p
  | .null => rfl
  | .bool _ => rfl
  | .number _ => rfl
  | .string _ => rfl
  | .array items => congrArg Payload.array (ofItems_toItems items)
  | .object members => congrArg Payload.object (ofMembers_toMembers members)

theorem ofItems_toItems : ∀ items : List Payload, ofItems (toItems items) = items
  | [] => rfl
  | item :: items => congrArg₂ List.cons (ofJson_toJson item) (ofItems_toItems items)

theorem ofMembers_toMembers : ∀ members : List (String × Payload), ofMembers (toMembers members) = members
  | [] => rfl
  | (key, value) :: members =>
    congrArg₂ (fun v ms => (key, v) :: ms) (ofJson_toJson value) (ofMembers_toMembers members)

end

mutual

theorem toJson_ofJson : ∀ j : Json, (ofJson j).toJson = j
  | .null => rfl
  | .bool _ => rfl
  | .number _ => rfl
  | .string _ => rfl
  | .array items => congrArg Json.array (toItems_ofItems items)
  | .object members => congrArg Json.object (toMembers_ofMembers members)

theorem toItems_ofItems : ∀ items : List Json, toItems (ofItems items) = items
  | [] => rfl
  | item :: items => congrArg₂ List.cons (toJson_ofJson item) (toItems_ofItems items)

theorem toMembers_ofMembers : ∀ members : List (String × Json), toMembers (ofMembers members) = members
  | [] => rfl
  | (key, value) :: members =>
    congrArg₂ (fun v ms => (key, v) :: ms) (toJson_ofJson value) (toMembers_ofMembers members)

end

mutual

/-- The text of a payload is that of its document. -/
theorem chars_toJson : ∀ p : Payload, p.toJson.chars = p.chars
  | .null => rfl
  | .bool b => by cases b <;> rfl
  | .number _ => rfl
  | .string _ => rfl
  | .array [] => rfl
  | .array (item :: items) => by
    simp [toJson, toItems, Json.chars_array_cons, chars, itemsChars, chars_toJson item, itemsChars_toItems items]
  | .object [] => rfl
  | .object ((key, value) :: members) => by
    simp [toJson, toMembers, Json.chars_object_cons, chars, membersChars, chars_toJson value,
      membersChars_toMembers members]

theorem itemsChars_toItems : ∀ items : List Payload,
    Json.itemsChars (toItems items) = itemsChars false items ++ [']']
  | [] => rfl
  | item :: items => by
    simp [toItems, Json.itemsChars_cons, itemsChars, chars_toJson item, itemsChars_toItems items]

theorem membersChars_toMembers : ∀ members : List (String × Payload),
    Json.membersChars (toMembers members) = membersChars false members ++ ['\x7d']
  | [] => rfl
  | (key, value) :: members => by
    simp [toMembers, Json.membersChars_cons, membersChars, chars_toJson value, membersChars_toMembers members]

end

/-! ## Decoding -/

/-- How deep a payload nests: as deep as its document. -/
def depth (p : Payload) : Nat := p.toJson.depth

/-- True if there is a double in a payload. -/
def hasReal (p : Payload) : Bool := p.toJson.hasReal

/-- The bytes of a text are decoded to what is read from the text. -/
theorem decode_encode {text : List Char} {j : Json} (h : Json.Reader.read text = .ok j) :
    decode (Utf8.encode (String.ofList text)) = .ok (ofJson j) := by
  simp [decode, Utf8.decode?_encode, h]

/-- A body is decoded to a payload just if it is a text in UTF-8 that a document is read from. -/
theorem decode_eq_ok {body : List UInt8} {p : Payload} :
    decode body = .ok p ↔ ∃ (text : String) (j : Json), body = Utf8.encode text ∧
      Json.Reader.read text.toList = .ok j ∧ p = ofJson j := by
  constructor
  · intro h
    unfold decode at h
    split at h
    · cases h
    · rename_i cs htext
      split at h <;> cases h
      rename_i j hread
      exact ⟨String.ofList cs, j, Utf8.decode?_eq_ok.mp htext, by rwa [String.toList_ofList], rfl⟩
  · rintro ⟨text, j, rfl, hread, rfl⟩
    have h := decode_encode hread
    rwa [String.ofList_toList] at h

/-- A payload that was decoded has its keys in order and nests no deeper than the limit. -/
theorem decode_spec {body : List UInt8} {p : Payload} (h : decode body = .ok p) :
    p.toJson.Ordered ∧ p.depth ≤ Json.Reader.maxDepth := by
  unfold decode at h
  split at h
  · cases h
  · split at h
    · cases h
    · rename_i j hread
      cases h
      rw [depth, toJson_ofJson]
      exact Json.Reader.read_spec hread

/-- A payload that was decoded, without doubles, is decoded from its text again. -/
theorem decode_render {body : List UInt8} {p : Payload} (h : decode body = .ok p) (hreal : p.hasReal = false) :
    decode (Utf8.encode p.render) = .ok p := by
  obtain ⟨hordered, hdepth⟩ := decode_spec h
  have hreads := (Json.Reader.reads_of_ordered hordered hreal hdepth).reads [] nofun
  rw [List.append_nil, chars_toJson] at hreads
  rw [render, decode_encode (Json.Reader.read_of_value hreads), ofJson_toJson]

end EventCourier.Payload
