import ApiDecl.Route.Basic
import ApiDecl.Route.Signature
import ApiDecl.Schema.OfStruct

/-!
# Collecting routes

Every visible trait whose name ends in `Service` is a group, and every method of it is a route. The
documentation lines of a trait and of a method are read in order: directives say the base path, the
route and the status, and all other lines with a word in them make the description.
-/

namespace ApiDecl

open Syntax

/-- What the names of services end in. -/
def serviceEnding : String := "Service"

/-! ## Documentation -/

/-- What the documentation of a service says. -/
structure GroupDoc where
  /-- The base path of the last group directive, empty if there is none. -/
  basePath : String := ""
  /-- The description, line by line. -/
  description : List String := []
  deriving Repr, DecidableEq, Inhabited

/-- Adds a line to the documentation of a service. -/
def GroupDoc.add (owner : String) (doc : GroupDoc) (line : DocLine) : Except Error GroupDoc := do
  match ← line.directive? owner with
  | none => return doc
  | some (.group path) => return { doc with basePath := path }
  | some _ => return { doc with description := doc.description ++ [line.text] }

/-- What documentation lines say about a service. -/
def GroupDoc.ofLines (owner : String) (lines : List DocLine) : Except Error GroupDoc :=
  lines.foldlM (GroupDoc.add owner) {}

/-- What the documentation of a method says. -/
structure RouteDoc where
  /-- The method and the path of the route directive, and where it is. -/
  route : Option (HttpMethod × String × Location) := none
  /-- The status of the last code directive. -/
  code : Option Nat := none
  /-- The description, line by line. -/
  description : List String := []
  deriving Repr, DecidableEq, Inhabited

/-- Adds a line to the documentation of a method. -/
def RouteDoc.add (owner : String) (doc : RouteDoc) (line : DocLine) : Except Error RouteDoc := do
  match ← line.directive? owner with
  | none => return doc
  | some (.route method path) =>
    if doc.route.isSome then throw (line.error owner .secondRoute)
    return { doc with route := some (method, path, line.location) }
  | some (.code status) => return { doc with code := some status }
  | some _ => return { doc with description := doc.description ++ [line.text] }

/-- What documentation lines say about a method. -/
def RouteDoc.ofLines (owner : String) (lines : List DocLine) : Except Error RouteDoc :=
  lines.foldlM (RouteDoc.add owner) {}

/-! ## Requests and responses -/

namespace Catalog

/-- The struct of a request or response, if it is known. -/
def routeStruct? (c : Catalog) : Option TypeName → Traced (Option StructDescriptor)
  | none => return none
  | some name =>
    match c.get? name with
    | some s => return some s
    | none => do
      note (.routeStructUnknown name.toText)
      return none

/-- The parameter that a field is at a place, if it has a tag entry with a name for it. -/
def parameter? (c : Catalog) (owner struct : String) (f : Field) (place : ParameterPlace) :
    Compile (Option (ParameterPlace × Parameter)) := do
  match f.tag.lookup? place.name with
  | none => return none
  | some name =>
    if name.isEmpty then
      liftM (note (.parameterUnnamed owner place.name struct f.name))
      return none
    return some (place, ⟨name, ← c.fieldSchema f, f.tag.isRequired⟩)

/-- The parameters of a request: each visible field, at each place. -/
def parameters (c : Catalog) (owner : String) (request : StructDescriptor) :
    Compile ParameterTable := do
  let visible := request.fields.filter (·.exported)
  let found ← visible.mapM fun f =>
    ParameterPlace.all.mapM (c.parameter? owner request.name f)
  return .ofList (found.flatMap fun row => row.filterMap id)

/-- The schema of a struct that is a body. -/
def bodySchema (c : Catalog) (s : StructDescriptor) : Compile Schema :=
  c.structSchema s (some s.name)

/-! ## Groups -/

/-- The route that a method of a service declares. -/
def route (c : Catalog) (file group : String) (m : MethodDecl) : Compile Route := do
  let name := plainName m.name
  let owner := group ++ "." ++ name
  let doc ← liftExcept (RouteDoc.ofLines owner (docLines file m.attributes))
  let some (method, path, location) := doc.route | throw (.missingRoute owner)
  let (input, output) ← liftExcept ((m.signature? file).mapError (Error.signature owner))
  let request ← c.routeStruct? input
  let answer ← c.routeStruct? output
  let parameters ← request.elim (return {}) (c.parameters owner)
  let body := if method = .get then none else request
  let requestBody ← body.mapM c.bodySchema
  let response ← answer.mapM c.bodySchema
  liftM (note (.routeDone owner method path))
  return {
    name, method, path, description := "\n".intercalate doc.description, code := doc.code,
    input, output, parameters, requestBody, response, location
  }

/-- Whether a trait is a service. -/
def isService (t : TraitDecl) : Bool :=
  serviceEnding.toList.isSuffixOf (plainName t.name).toList

/-- The group that a service declares. Of several methods with one name the last one counts. -/
def group (c : Catalog) (file : String) (t : TraitDecl) : Compile RouteGroup := do
  let name := plainName t.name
  liftM (note (.groupStarted name file))
  let doc ← liftExcept (GroupDoc.ofLines name (docLines file t.attributes))
  let routes ← t.methods.mapM (c.route file name)
  return ⟨name, "\n".intercalate doc.description, doc.basePath,
    routes.foldl (fun found r => putByKey Route.name r found) []⟩

/-- The groups of some files, in order. -/
def groups (c : Catalog) (files : List SourceFile) : Compile (List RouteGroup) := do
  let groups ← files.mapM fun f => (f.traits.filter isService).mapM (c.group f.path)
  let groups := groups.flatten
  liftM (note (.routesDone groups.length (routeCount groups)))
  return groups

end Catalog

end ApiDecl
