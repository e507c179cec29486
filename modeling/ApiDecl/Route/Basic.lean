import ApiDecl.Catalog.TypeName
import ApiDecl.Route.Method
import ApiDecl.Schema.Basic
import ApiDecl.Source.Position

/-!
# Routes

A service is a group of routes below one base path. A route binds a method of the service to an HTTP
method and a path, and says what is sent and what is answered.
-/

namespace ApiDecl

/-- Where a parameter of a request is found. -/
inductive ParameterPlace where
  /-- In a header. -/
  | header
  /-- In the query. -/
  | query
  /-- In a cookie. -/
  | cookie
  /-- In the path. -/
  | uri
  deriving Repr, DecidableEq, Inhabited

namespace ParameterPlace

/-- All places, in order. -/
def all : List ParameterPlace := [header, query, cookie, uri]

/-- The name of a place, which is also the tag key of parameters there. -/
def name : ParameterPlace → String
  | header => "header"
  | query => "query"
  | cookie => "cookie"
  | uri => "uri"

/-- The place with exactly this name. -/
def ofName? (name : String) : Option ParameterPlace := all.find? fun p => p.name == name

end ParameterPlace

/-- A parameter of a request. -/
structure Parameter where
  /-- The name of the parameter. -/
  name : String
  /-- The schema of its values. -/
  schema : Schema
  /-- Whether it has to be given. -/
  required : Bool
  deriving Inhabited

/-- The parameters of a request by their places; `none` where there are none. -/
structure ParameterTable where
  /-- The parameters in headers. -/
  header : Option (List Parameter) := none
  /-- The parameters in the query. -/
  query : Option (List Parameter) := none
  /-- The parameters in cookies. -/
  cookie : Option (List Parameter) := none
  /-- The parameters in the path. -/
  uri : Option (List Parameter) := none
  deriving Inhabited

namespace ParameterTable

/-- The parameters at a place. -/
def get? (t : ParameterTable) : ParameterPlace → Option (List Parameter)
  | .header => t.header
  | .query => t.query
  | .cookie => t.cookie
  | .uri => t.uri

/-- The table with the parameters at each place given by a function. -/
def ofPlaces (at? : ParameterPlace → Option (List Parameter)) : ParameterTable :=
  ⟨at? .header, at? .query, at? .cookie, at? .uri⟩

/-- Looking a place up in a table gives what the table was made from. -/
theorem get?_ofPlaces (at? : ParameterPlace → Option (List Parameter)) (p : ParameterPlace) :
    (ofPlaces at?).get? p = at? p := by
  cases p <;> rfl

/-- The table of some parameters, which stay in order at each place. -/
def ofList (parameters : List (ParameterPlace × Parameter)) : ParameterTable :=
  ofPlaces fun place =>
    match parameters.filter (·.1 == place) with
    | [] => none
    | found => some (found.map (·.2))

/-- The places where there are parameters, in order, with the parameters there. -/
def toList (t : ParameterTable) : List (ParameterPlace × List Parameter) :=
  ParameterPlace.all.filterMap fun place => (t.get? place).map (place, ·)

end ParameterTable

/-- A method of a service as a route. -/
structure Route where
  /-- The name of the method. -/
  name : String
  /-- The HTTP method. -/
  method : HttpMethod
  /-- The path below the base path of the group. -/
  path : String
  /-- The description. -/
  description : String
  /-- The status of a successful answer, if it is declared. -/
  code : Option Nat
  /-- The struct of the request, unless it is empty. -/
  input : Option TypeName
  /-- The struct of the answer, unless it is empty. -/
  output : Option TypeName
  /-- The parameters of the request. -/
  parameters : ParameterTable
  /-- The body of the request. -/
  requestBody : Option Schema
  /-- The body of the answer. -/
  response : Option Schema
  /-- Where the route is declared. -/
  location : Location
  deriving Inhabited

/-- A service. -/
structure RouteGroup where
  /-- The name of the service. -/
  name : String
  /-- The description. -/
  description : String
  /-- What all paths of the group start with. -/
  basePath : String
  /-- The routes, in order and with different names. -/
  routes : List Route
  deriving Inhabited

/-- The path of a route below the base path of its group. -/
def RouteGroup.fullPath (g : RouteGroup) (r : Route) : String := g.basePath ++ r.path

/-- The number of routes of some groups. -/
def routeCount (groups : List RouteGroup) : Nat := (groups.flatMap (·.routes)).length

end ApiDecl
