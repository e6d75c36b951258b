import EventCourier.Failure

/-!
# Payloads

The closed tree of values that a message body decodes to, with accessors for the sinks that need only a part
of it. It holds the same data as a document; `ofJson` and `toJson` go back and forth, and `chars` writes it
on its own.
-/

namespace EventCourier

/-- A decoded body. -/
inductive Payload where
  | null
  | bool (b : Bool)
  | number (n : Number)
  | string (s : String)
  | array (items : List Payload)
  | object (members : List (String × Payload))

namespace Payload

/-! ## Documents -/

mutual

/-- The payload of a document. -/
def ofJson : Json → Payload
  | .null => .null
  | .bool b => .bool b
  | .number n => .number n
  | .string s => .string s
  | .array items => .array (ofItems items)
  | .object members => .object (ofMembers members)

/-- The payloads of the items of an array. -/
def ofItems : List Json → List Payload
  | [] => []
  | item :: items => ofJson item :: ofItems items

/-- The payloads of the members of an object. -/
def ofMembers : List (String × Json) → List (String × Payload)
  | [] => []
  | (key, value) :: members => (key, ofJson value) :: ofMembers members

end

mutual

/-- The document of a payload. -/
def toJson : Payload → Json
  | .null => .null
  | .bool b => .bool b
  | .number n => .number n
  | .string s => .string s
  | .array items => .array (toItems items)
  | .object members => .object (toMembers members)

/-- The documents of the items of an array. -/
def toItems : List Payload → List Json
  | [] => []
  | item :: items => toJson item :: toItems items

/-- The documents of the members of an object. -/
def toMembers : List (String × Payload) → List (String × Json)
  | [] => []
  | (key, value) :: members => (key, toJson value) :: toMembers members

end

mutual

/-- The compact text of a payload. -/
def chars : Payload → List Char
  | .null => "null".toList
  | .bool b => if b then "true".toList else "false".toList
  | .number n => n.chars
  | .string s => Json.quote s
  | .array items => '[' :: (itemsChars true items ++ [']'])
  | .object members => '\x7b' :: (membersChars true members ++ ['\x7d'])

/-- Items with a comma before each but the first. -/
def itemsChars : Bool → List Payload → List Char
  | _, [] => []
  | first, item :: items => (if first then [] else [',']) ++ chars item ++ itemsChars false items

/-- Members with a comma before each but the first. -/
def membersChars : Bool → List (String × Payload) → List Char
  | _, [] => []
  | first, (key, value) :: members =>
    (if first then [] else [',']) ++ Json.quote key ++ ':' :: chars value ++ membersChars false members

end

/-- The compact text of a payload. -/
def render (p : Payload) : String := String.ofList p.chars

/-- Equality of payloads, which is that of their documents. -/
def same (a b : Payload) : Bool := Json.same a.toJson b.toJson

/-! ## Decoding -/

/-- Decodes a body: UTF-8 text that holds one document. -/
def decode (body : List UInt8) : Except WorkerError Payload :=
  match Utf8.decode? body with
  | .error fault => .error (.ofUtf8Fault fault)
  | .ok text =>
    match Json.Reader.read text with
    | .error e => .error (.ofReadError e)
    | .ok j => .ok (ofJson j)

/-! ## Accessors -/

/-- The member of an object under a key. -/
def get? (key : String) : Payload → Option Payload
  | .object members => Dictionary.get? key members
  | _ => none

/-- The text of a string. -/
def asString? : Payload → Option String
  | .string s => some s
  | _ => none

/-- An integer of 64 bits with sign. -/
def asInt64? : Payload → Option Int
  | .number n => n.toInt64?
  | _ => none

/-- The double nearest to a number. -/
def asDouble? : Payload → Option Double
  | .number n => some n.toDouble
  | _ => none

/-- A truth value. -/
def asBool? : Payload → Option Bool
  | .bool b => some b
  | _ => none

/-- The items of an array. -/
def asArray? : Payload → Option (List Payload)
  | .array items => some items
  | _ => none

/-- The members of an object. -/
def asObject? : Payload → Option (Dictionary Payload)
  | .object members => some members
  | _ => none

/-- True of null. -/
def isNull : Payload → Bool
  | .null => true
  | _ => false

/-- The kind of a value, for messages about fields. -/
def typeName : Payload → String
  | .null => "null"
  | .bool _ => "bool"
  | .number _ => "number"
  | .string _ => "string"
  | .array _ => "array"
  | .object _ => "object"

end Payload
end EventCourier
