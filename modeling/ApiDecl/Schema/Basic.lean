import ApiDecl.Json.Printer

/-!
# Schemas

A schema says which JSON values are valid. The parts that are not set are left out when a schema is
written (`Schema.json`). A definition is a schema with an identity, which other schemas refer to.
-/

namespace ApiDecl

/-- A schema. -/
structure Schema where
  /-- The kind of values. -/
  type : Option String := none
  /-- The format of texts. -/
  format : Option String := none
  /-- The names of the properties, in order. -/
  order : List String := []
  /-- The schema of the elements of a list. -/
  items : Option Schema := none
  /-- The properties of an object, in order and with different names. -/
  properties : List (String × Schema) := []
  /-- The schema of properties that are not listed. -/
  additionalProperties : Option Schema := none
  /-- The names of required properties. -/
  required : List String := []
  /-- A description. -/
  description : String := ""
  /-- The definition that this schema refers to. -/
  reference : Option String := none

/-- The number that identifies a name: its length in bytes, times ten thousand, and the sum of its
bytes. Different names may have the same number. -/
def definitionId (name : String) : UInt64 :=
  let bytes := name.toUTF8.data.toList
  UInt64.ofNat (bytes.length * 10000 + bytes.foldl (fun sum b => sum + b.toNat) 0)

/-- A schema that others refer to. -/
structure Definition where
  /-- The number of its name. -/
  id : UInt64
  /-- The name of its struct. -/
  name : String
  /-- The schema itself. -/
  schema : Schema

namespace Schema

instance : Inhabited Schema := ⟨{}⟩

/-- The schema that says nothing. -/
def empty : Schema := {}

/-- The schema of all values of a kind. -/
def typed (type : String) : Schema := { type := some type }

/-- The schema of points in time. -/
def dateTime : Schema := { type := some "string", format := some "date-time" }

/-- The schema of dictionaries with any values. -/
def dictionary : Schema := { type := some "object", additionalProperties := some (typed "any") }

/-- The schema of lists. -/
def list (items : Schema) : Schema := { type := some "array", items := some items }

/-- Where definitions are found in a document. -/
def referenceStart : String := "#/definitions/schemas/"

/-- The schema that refers to a definition. -/
def referTo (id : UInt64) : Schema :=
  { type := some "object", reference := some (referenceStart ++ toString id.toNat) }

/-- Whether a schema refers to a definition. -/
def isReference (s : Schema) : Bool := s.reference.isSome

/-! ## Writing -/

/-- The names of the parts of a schema, in the order in which they are written. -/
def partNames : List String :=
  ["type", "format", "x-apicat-order", "items", "properties", "additionalProperties", "required",
    "description", "$ref"]

/-- A member of an object for a text that may be absent. -/
def textMember (name : String) : Option String → List (String × Json)
  | none => []
  | some text => [(name, .string text)]

/-- A member of an object for a list of texts that may be empty. -/
def textsMember (name : String) (texts : List String) : List (String × Json) :=
  if texts.isEmpty then [] else [(name, .strings texts)]

mutual

/-- A schema as a JSON object. -/
def json : Schema → Json
  | ⟨type, format, order, items, properties, additionalProperties, required, description,
      reference⟩ =>
    .object (textMember "type" type ++ textMember "format" format ++
      textsMember "x-apicat-order" order ++ memberJson "items" items ++
      (if properties.isEmpty then [] else [("properties", .object (propertiesJson properties))]) ++
      memberJson "additionalProperties" additionalProperties ++ textsMember "required" required ++
      (if description.isEmpty then [] else [("description", .string description)]) ++
      textMember "$ref" reference)

/-- A member of an object for a schema that may be absent. -/
def memberJson (name : String) : Option Schema → List (String × Json)
  | none => []
  | some s => [(name, s.json)]

/-- Named schemas as the members of an object. -/
def propertiesJson : List (String × Schema) → List (String × Json)
  | [] => []
  | (name, s) :: rest => (name, s.json) :: propertiesJson rest

end

/-- A schema on one line. -/
def text (s : Schema) : String := s.json.compactText

end Schema

end ApiDecl
