import ApiDecl.Document.Basic

/-!
# Writing documents

A document is written as an indented JSON object and a line feed.
-/

namespace ApiDecl

/-- Bodies as a JSON object. -/
def bodiesJson (bodies : BodyTable) : Json :=
  .object (bodies.map fun (mediaType, schema) => (mediaType, .object [("schema", schema.json)]))

/-- A parameter as a JSON object. -/
def Parameter.json (p : Parameter) : Json :=
  .object [("name", .string p.name), ("schema", p.schema.json), ("required", .bool p.required)]

/-- Parameters as a JSON object: a list for each place where there are any. -/
def ParameterTable.json (t : ParameterTable) : Json :=
  .object (t.toList.map fun (place, parameters) => (place.name, .array (parameters.map (·.json))))

/-- An answer as a JSON object. -/
def ResponseEntry.json (e : ResponseEntry) : Json :=
  .object [("code", .ofHalfword e.code), ("description", .string e.description),
    ("content", bodiesJson e.content)]

namespace ContentNode

/-- The name of the kind of a node. -/
def kind : ContentNode → String
  | url _ => "apicat-http-url"
  | request _ => "apicat-http-request"
  | response _ => "apicat-http-response"

/-- What a node says, as a JSON object. -/
def attributesJson : ContentNode → Json
  | url node => .object [("path", .string node.path), ("method", .string node.method.name)]
  | request node =>
    .object (("parameters", node.parameters.json) ::
      match node.content with
      | none => []
      | some bodies => [("content", bodiesJson bodies)])
  | response entries => .object [("list", .array (entries.map (·.json)))]

/-- A node as a JSON object. -/
def json (n : ContentNode) : Json :=
  .object [("type", .string n.kind), ("attrs", n.attributesJson)]

end ContentNode

/-- A definition as a JSON object. -/
def Definition.json (d : Definition) : Json :=
  .object [("id", .ofWord d.id), ("name", .string d.name), ("schema", d.schema.json)]

/-- An item as a JSON object. -/
def DocumentItem.json (i : DocumentItem) : Json :=
  .object [("title", .string i.title), ("id", .ofWord i.id), ("parentid", .ofWord i.parentId),
    ("type", .string i.type), ("content", .array (i.content.map (·.json)))]

/-- A category as a JSON object. -/
def Category.json (c : Category) : Json :=
  .object [("title", .string c.title), ("id", .ofWord c.id), ("type", .string c.type),
    ("items", .array (c.items.map (·.json)))]

namespace Document

/-- A document as a JSON object. -/
def json (d : Document) : Json :=
  .object [("apicat", .string d.version), ("info", .object d.info), ("servers", .array d.servers),
    ("definitions", .object [("schemas", .array (d.definitions.map (·.json)))]),
    ("collections", .array (d.categories.map (·.json)))]

/-- The text of a document. -/
def text (d : Document) : String := d.json.indentedText ++ "\n"

/-- Writes a document. -/
def print (d : Document) : Traced String := do
  note .documentPrinted
  return d.text

end Document

end ApiDecl
