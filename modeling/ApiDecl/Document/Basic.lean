import ApiDecl.Event
import ApiDecl.Route.Basic

/-!
# API documents

A document lists the definitions and, for each group of routes, a category with an item for each
route. An item has three nodes: where the route is found, what is sent and what is answered.
-/

namespace ApiDecl

/-- Where a route is found. -/
structure UrlNode where
  /-- The full path. -/
  path : String
  /-- The HTTP method. -/
  method : HttpMethod
  deriving Repr, DecidableEq, Inhabited

/-- Bodies by their media types, in order and with different names. -/
abbrev BodyTable := List (String × Schema)

/-- What is sent to a route. -/
structure RequestNode where
  /-- The parameters. -/
  parameters : ParameterTable
  /-- The bodies, if there is one. -/
  content : Option BodyTable
  deriving Inhabited

/-- One kind of answer. -/
structure ResponseEntry where
  /-- The status of the answer. -/
  code : UInt16
  /-- The description. -/
  description : String
  /-- The bodies. -/
  content : BodyTable
  deriving Inhabited

/-- A node of an item. -/
inductive ContentNode where
  /-- Where the route is found. -/
  | url (node : UrlNode)
  /-- What is sent to it. -/
  | request (node : RequestNode)
  /-- What it answers. -/
  | response (entries : List ResponseEntry)

instance : Inhabited ContentNode := ⟨.url default⟩

/-- A route in a document. -/
structure DocumentItem where
  /-- The description of the route. -/
  title : String
  /-- The number of the item. -/
  id : UInt64
  /-- The number of its category. -/
  parentId : UInt64
  /-- The kind of item. -/
  type : String
  /-- The nodes. -/
  content : List ContentNode
  deriving Inhabited

/-- A group of routes in a document. -/
structure Category where
  /-- The description of the group. -/
  title : String
  /-- The number of the category. -/
  id : UInt64
  /-- The kind of category. -/
  type : String
  /-- The items, in order. -/
  items : List DocumentItem
  deriving Inhabited

/-- A document. -/
structure Document where
  /-- The version of the format. -/
  version : String
  /-- The members of an object with further information, in the order of their names. -/
  info : List (String × Json)
  /-- The servers. -/
  servers : List Json
  /-- The definitions. -/
  definitions : List Definition
  /-- The categories. -/
  categories : List Category
  deriving Inhabited

/-! ## Assembling -/

/-- The version of documents that are assembled. -/
def documentVersion : String := "2.0"

/-- The media type of bodies. -/
def bodyMediaType : String := "application/json"

/-- The status of answers unless another one is declared. -/
def defaultStatus : Nat := 200

/-- The description of answers. -/
def successDescription : String := "success"

/-- The kind of categories. -/
def categoryType : String := "category"

/-- The kind of items. -/
def itemType : String := "http"

/-- A body as a table. -/
def bodyTable (schema : Schema) : BodyTable := [(bodyMediaType, schema)]

/-- The nodes of a route. -/
def RouteGroup.contentNodes (g : RouteGroup) (r : Route) : List ContentNode :=
  [.url ⟨g.fullPath r, r.method⟩,
    .request ⟨r.parameters, r.requestBody.map bodyTable⟩,
    .response [⟨UInt16.ofNat (r.code.getD defaultStatus), successDescription,
      (r.response.map bodyTable).getD []⟩]]

/-- The item of a route. -/
def RouteGroup.item (g : RouteGroup) (r : Route) : DocumentItem :=
  ⟨r.description, definitionId (g.name ++ r.name), definitionId g.name, itemType,
    g.contentNodes r⟩

/-- The category of a group. -/
def RouteGroup.category (g : RouteGroup) : Category :=
  ⟨g.description, definitionId g.name, categoryType, g.routes.map g.item⟩

/-- The document with some definitions and groups. -/
def Document.assemble (definitions : List Definition) (groups : List RouteGroup) :
    Traced Document := do
  note (.documentStarted definitions.length groups.length)
  return ⟨documentVersion, [], [], definitions, groups.map (·.category)⟩

end ApiDecl
