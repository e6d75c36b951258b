import EventCourier.Proofs.Payload

/-!
# Payloads and documents are one tree

`ofJson` and `toJson` leave the members of an object where they stand. A program that converts a map takes its
entries in order and puts them one after the other into a new map (`fromDocument`, `toDocument`), where a later
entry would replace an earlier one of the same key. On trees with their keys in order none is moved or lost
(`fromDocument_eq`, `toDocument_eq`), and such trees are converted to such trees (`ordered_ofJson`,
`ordered_toJson`). So both ways of converting are inverses of each other and keep the text (`one_tree`).
-/

namespace EventCourier.Payload

/-! ## Conversion by way of new maps -/

mutual

/-- The payload of a document, each object put together from its members. -/
def fromDocument : Json → Payload
  | .null => .null
  | .bool b => .bool b
  | .number n => .number n
  | .string s => .string s
  | .array items => .array (fromItems items)
  | .object members => .object (Dictionary.ofList (fromMembers members))

/-- The payloads of the items of an array, in turn. -/
def fromItems : List Json → List Payload
  | [] => []
  | item :: items => fromDocument item :: fromItems items

/-- The entries that the members of an object make, in turn. -/
def fromMembers : List (String × Json) → List (String × Payload)
  | [] => []
  | (key, value) :: members => (key, fromDocument value) :: fromMembers members

end

mutual

/-- The document of a payload, each object put together from its members. -/
def toDocument : Payload → Json
  | .null => .null
  | .bool b => .bool b
  | .number n => .number n
  | .string s => .string s
  | .array items => .array (intoItems items)
  | .object members => .object (Dictionary.ofList (intoMembers members))

/-- The documents of the items of an array, in turn. -/
def intoItems : List Payload → List Json
  | [] => []
  | item :: items => toDocument item :: intoItems items

/-- The entries that the members of an object make, in turn. -/
def intoMembers : List (String × Payload) → List (String × Json)
  | [] => []
  | (key, value) :: members => (key, toDocument value) :: intoMembers members

end

/-- The keys of every object increase. -/
inductive Ordered : Payload → Prop
  | null : Ordered .null
  | bool (b : Bool) : Ordered (.bool b)
  | number (n : Number) : Ordered (.number n)
  | string (s : String) : Ordered (.string s)
  | array {items : List Payload} (hitems : ∀ p ∈ items, Ordered p) : Ordered (.array items)
  | object {members : List (String × Payload)} (hkeys : Dictionary.Increasing members)
      (hvalues : ∀ m ∈ members, Ordered m.2) : Ordered (.object members)

/-! ## Items and members by themselves -/

section Children

variable {items : List Json} {members : List (String × Json)} {parts : List Payload}
  {fields : List (String × Payload)}

theorem ofItems_eq_map (items : List Json) : ofItems items = items.map ofJson := by
  induction items with
  | nil => rfl
  | cons item items ih => rw [ofItems, ih, List.map_cons]

theorem ofMembers_eq_map (members : List (String × Json)) :
    ofMembers members = members.map fun m => (m.1, ofJson m.2) := by
  induction members with
  | nil => rfl
  | cons m members ih => rw [ofMembers, ih, List.map_cons]

theorem toItems_eq_map (parts : List Payload) : toItems parts = parts.map toJson := by
  induction parts with
  | nil => rfl
  | cons part parts ih => rw [toItems, ih, List.map_cons]

theorem toMembers_eq_map (fields : List (String × Payload)) :
    toMembers fields = fields.map fun m => (m.1, toJson m.2) := by
  induction fields with
  | nil => rfl
  | cons m fields ih => rw [toMembers, ih, List.map_cons]

/-- Items that are converted alike make the same array. -/
theorem fromItems_eq (h : ∀ j ∈ items, fromDocument j = ofJson j) : fromItems items = ofItems items := by
  induction items with
  | nil => rfl
  | cons item items ih =>
    obtain ⟨hitem, hitems⟩ := List.forall_mem_cons.mp h
    rw [fromItems, ofItems, hitem, ih hitems]

theorem fromMembers_eq (h : ∀ m ∈ members, fromDocument m.2 = ofJson m.2) :
    fromMembers members = ofMembers members := by
  induction members with
  | nil => rfl
  | cons m members ih =>
    obtain ⟨hvalue, hmembers⟩ := List.forall_mem_cons.mp h
    rw [fromMembers, ofMembers, hvalue, ih hmembers]

theorem intoItems_eq (h : ∀ p ∈ parts, toDocument p = toJson p) : intoItems parts = toItems parts := by
  induction parts with
  | nil => rfl
  | cons part parts ih =>
    obtain ⟨hpart, hparts⟩ := List.forall_mem_cons.mp h
    rw [intoItems, toItems, hpart, ih hparts]

theorem intoMembers_eq (h : ∀ m ∈ fields, toDocument m.2 = toJson m.2) :
    intoMembers fields = toMembers fields := by
  induction fields with
  | nil => rfl
  | cons m fields ih =>
    obtain ⟨hvalue, hfields⟩ := List.forall_mem_cons.mp h
    rw [intoMembers, toMembers, hvalue, ih hfields]

/-- Conversion of the values leaves the keys in order. -/
theorem increasing_ofMembers (h : Dictionary.Increasing members) : Dictionary.Increasing (ofMembers members) := by
  rw [ofMembers_eq_map]
  exact List.pairwise_map.mpr h

theorem increasing_toMembers (h : Dictionary.Increasing fields) : Dictionary.Increasing (toMembers fields) := by
  rw [toMembers_eq_map]
  exact List.pairwise_map.mpr h

end Children

/-! ## Trees with their keys in order -/

variable {v : Json} {p : Payload}

/-- A document with its keys in order is converted to a payload with its keys in order. -/
theorem ordered_ofJson (h : v.Ordered) : (ofJson v).Ordered := by
  induction h with
  | null => exact .null
  | bool b => exact .bool b
  | number n => exact .number n
  | string s => exact .string s
  | array hitems ih =>
    refine .array ?_
    rw [ofItems_eq_map]
    exact List.forall_mem_map.mpr ih
  | object hkeys hvalues ih =>
    refine .object (increasing_ofMembers hkeys) ?_
    rw [ofMembers_eq_map]
    exact List.forall_mem_map.mpr ih

/-- A payload with its keys in order is converted to a document with its keys in order. -/
theorem ordered_toJson (h : p.Ordered) : p.toJson.Ordered := by
  induction h with
  | null => exact .null
  | bool b => exact .bool b
  | number n => exact .number n
  | string s => exact .string s
  | array hitems ih =>
    refine .array ?_
    rw [toItems_eq_map]
    exact List.forall_mem_map.mpr ih
  | object hkeys hvalues ih =>
    refine .object (increasing_toMembers hkeys) ?_
    rw [toMembers_eq_map]
    exact List.forall_mem_map.mpr ih

/-- New maps hold the members in the places they had. -/
theorem fromDocument_eq (h : v.Ordered) : fromDocument v = ofJson v := by
  induction h with
  | null => rfl
  | bool b => rfl
  | number n => rfl
  | string s => rfl
  | array hitems ih => rw [fromDocument, fromItems_eq ih, ofJson]
  | object hkeys hvalues ih =>
    rw [fromDocument, fromMembers_eq ih, Dictionary.ofList_of_increasing (increasing_ofMembers hkeys), ofJson]

theorem toDocument_eq (h : p.Ordered) : toDocument p = p.toJson := by
  induction h with
  | null => rfl
  | bool b => rfl
  | number n => rfl
  | string s => rfl
  | array hitems ih => rw [toDocument, intoItems_eq ih, toJson]
  | object hkeys hvalues ih =>
    rw [toDocument, intoMembers_eq ih, Dictionary.ofList_of_increasing (increasing_toMembers hkeys), toJson]

/-- **Payloads and documents are one tree.** Conversion there and back changes nothing, and a payload is written as
its document is, character by character; of trees with their keys in order this is so as well if every object is
put together anew. -/
theorem one_tree (v : Json) (p : Payload) :
    ((ofJson v).toJson = v ∧ ofJson p.toJson = p ∧ p.render = p.toJson.render) ∧
    (v.Ordered → (fromDocument v).Ordered ∧ toDocument (fromDocument v) = v) ∧
    (p.Ordered → (toDocument p).Ordered ∧ fromDocument (toDocument p) = p ∧
      p.render = (toDocument p).render) := by
  have hback : (ofJson v).toJson = v := toJson_ofJson v
  have hforth : ofJson p.toJson = p := ofJson_toJson p
  have htext : p.render = p.toJson.render := by rw [render, Json.render, chars_toJson]
  refine ⟨⟨hback, hforth, htext⟩, ?_, ?_⟩
  · intro hv
    have hpayload := ordered_ofJson hv
    rw [fromDocument_eq hv, toDocument_eq hpayload]
    exact ⟨hpayload, hback⟩
  · intro hp
    have hdocument := ordered_toJson hp
    rw [toDocument_eq hp, fromDocument_eq hdocument]
    exact ⟨hdocument, hforth, htext⟩

/-- A payload with numbers of every kind, empty containers, and keys that have to be escaped. -/
def mixed : Payload :=
  .object
    [("", .array
        [.number (.real ⟨0x8000000000000000⟩ (by decide)), .number (.real ⟨0x3FE0000000000000⟩ (by decide)),
          .number (.integer (-3) (by decide) (by decide)), .array [], .object []]),
     ("a\"\n", .object [("z", .null), ("é", .bool true)])]

theorem one_tree_mixed :
    mixed.Ordered ∧ mixed.toJson.Ordered ∧ toDocument (fromDocument mixed.toJson) = mixed.toJson ∧
      fromDocument (toDocument mixed) = mixed ∧
      (toDocument mixed).render =
        "\x7b\"\":[-0.0,0.5,-3,[],\x7b\x7d],\"a\\\"\\n\":\x7b\"z\":null,\"é\":true\x7d\x7d" := by
  have hmixed : mixed.Ordered := by
    refine .object (show List.Pairwise _ _ by decide) ?_
    simp only [List.forall_mem_cons]
    refine ⟨.array ?_, .object (show List.Pairwise _ _ by decide) ?_, List.forall_mem_nil _⟩
    · simp only [List.forall_mem_cons]
      exact ⟨.number _, .number _, .number _, .array (List.forall_mem_nil _),
        .object List.Pairwise.nil (List.forall_mem_nil _), List.forall_mem_nil _⟩
    · simp only [List.forall_mem_cons]
      exact ⟨.null, .bool true, List.forall_mem_nil _⟩
  have hdocument := ordered_toJson hmixed
  obtain ⟨-, hfrom, hto⟩ := one_tree mixed.toJson mixed
  obtain ⟨-, hback, htext⟩ := hto hmixed
  refine ⟨hmixed, hdocument, (hfrom hdocument).2, hback, ?_⟩
  rw [← htext]
  decide +kernel

end EventCourier.Payload
