import ApiDecl.Document.Printer
import ApiDecl.Schema.Reader

/-!
# Reading documents

A document is read back from the JSON object that it is written as. A node of an item has a kind and
attributes, which may come in either order.
-/

namespace ApiDecl

open Json

/-- The HTTP method with exactly this name. -/
def HttpMethod.named? (name : String) : Option HttpMethod := HttpMethod.all.find? (·.name == name)

/-- Reads a record: its fields, and how many levels their values may have. -/
def recordOf? (names : List String) (levels : Nat) (node : Node) : Option (Nat × Record) :=
  match levels with
  | 0 => none
  | inner + 1 => (node.record? names false).map (inner, ·)

/-- Reads bodies. -/
def bodiesOf? : NodeReader BodyTable :=
  Node.table? fun levels node => do
    let (inner, r) ← recordOf? ["schema"] levels node
    r.required? "schema" (Schema.ofNode? inner)

/-- Reads a parameter. -/
def Parameter.ofNode? : NodeReader Parameter := fun levels node => do
  let (inner, r) ← recordOf? ["name", "schema", "required"] levels node
  return ⟨← r.required? "name" Node.text?, ← r.required? "schema" (Schema.ofNode? inner),
    ← r.required? "required" Node.bool?⟩

/-- Reads the parameters by their places. Of several lists for one place the last one counts. -/
def ParameterTable.ofNode? : NodeReader ParameterTable := fun levels node => do
  let rows ← node.members? (Node.list? Parameter.ofNode?) levels
  let placed ← rows.mapM fun (name, parameters) =>
    (ParameterPlace.ofName? name).map (·, parameters)
  return .ofPlaces fun place => placed.reverse.lookup place

/-- Reads an answer. -/
def ResponseEntry.ofNode? : NodeReader ResponseEntry := fun levels node => do
  let (inner, r) ← recordOf? ["code", "description", "content"] levels node
  return ⟨← r.required? "code" Node.halfword?, ← r.required? "description" Node.text?,
    ← r.required? "content" (bodiesOf? inner)⟩

namespace ContentNode

/-- Reads where a route is found. -/
def urlOf? : NodeReader ContentNode := fun levels node => do
  let (inner, r) ← recordOf? ["path", "method"] levels node
  let path ← r.required? "path" Node.text?
  let method ← r.required? "method" (Node.choice? inner)
  return url ⟨path, ← HttpMethod.named? method⟩

/-- Reads the bodies of a request in a list or an object; in an object they may be absent. -/
def requestOf? : NodeReader ContentNode := fun levels node => do
  let (inner, r) ← recordOf? ["parameters", "content"] levels node
  return request ⟨← r.required? "parameters" (ParameterTable.ofNode? inner),
    ← r.optional? "content" (bodiesOf? inner)⟩

/-- Reads what a route answers. -/
def responseOf? : NodeReader ContentNode := fun levels node => do
  let (inner, r) ← recordOf? ["list"] levels node
  return response (← r.required? "list" (Node.list? ResponseEntry.ofNode? inner))

/-- Reads the attributes of a node of some kind. -/
def attributesOf? : String → Option (NodeReader ContentNode)
  | "apicat-http-url" => some urlOf?
  | "apicat-http-request" => some requestOf?
  | "apicat-http-response" => some responseOf?
  | _ => none

/-- Reads a node. Attributes in front of the kind have to be valid in all their parts, even those
that are skipped. -/
def ofNode? : NodeReader ContentNode := fun levels node => do
  let (inner, r) ← recordOf? ["type", "attrs"] levels node
  let kind ← r.required? "type" (Node.choice? inner)
  let read ← attributesOf? kind
  let attributes ← r.lookup "attrs"
  if (r.head?.map (·.1)) = some "attrs" then discard (attributes.value? inner)
  read inner attributes

end ContentNode

/-- Reads a definition. -/
def Definition.ofNode? : NodeReader Definition := fun levels node => do
  let (inner, r) ← recordOf? ["id", "name", "schema"] levels node
  return ⟨← r.required? "id" Node.word?, ← r.required? "name" Node.text?,
    ← r.required? "schema" (Schema.ofNode? inner)⟩

/-- Reads an item. -/
def DocumentItem.ofNode? : NodeReader DocumentItem := fun levels node => do
  let (inner, r) ← recordOf? ["title", "id", "parentid", "type", "content"] levels node
  return ⟨← r.required? "title" Node.text?, ← r.required? "id" Node.word?,
    ← r.required? "parentid" Node.word?, ← r.required? "type" Node.text?,
    ← r.required? "content" (Node.list? ContentNode.ofNode? inner)⟩

/-- Reads a category. -/
def Category.ofNode? : NodeReader Category := fun levels node => do
  let (inner, r) ← recordOf? ["title", "id", "type", "items"] levels node
  return ⟨← r.required? "title" Node.text?, ← r.required? "id" Node.word?,
    ← r.required? "type" Node.text?,
    ← r.required? "items" (Node.list? DocumentItem.ofNode? inner)⟩

namespace Document

/-- Reads further information: an object with any members. -/
def infoOf? (levels : Nat) (node : Node) : Option (List (String × Json)) := do
  match ← node.value? levels with
  | .object members => return members
  | _ => none

/-- Reads the definitions. -/
def definitionsOf? : NodeReader (List Definition) := fun levels node => do
  let (inner, r) ← recordOf? ["schemas"] levels node
  r.required? "schemas" (Node.list? Definition.ofNode? inner)

/-- Reads a document. -/
def ofNode? : NodeReader Document := fun levels node => do
  let (inner, r) ← recordOf? ["apicat", "info", "servers", "definitions", "collections"] levels node
  return ⟨← r.required? "apicat" Node.text?, ← r.required? "info" (infoOf? inner),
    ← r.required? "servers" (Node.list? (fun levels node => node.value? levels) inner),
    ← r.required? "definitions" (definitionsOf? inner),
    ← r.required? "collections" (Node.list? Category.ofNode? inner)⟩

/-- The document that a text holds. -/
def read? (text : String) : Option Document := do ofNode? maxLevels (← Node.read? text)

end Document

end ApiDecl
