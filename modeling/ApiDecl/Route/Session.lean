import ApiDecl.Route.Collect
import ApiDecl.Schema.Compiler

/-!
# Sessions with a compiler

Routes can be collected with any compiler. A session is a list of calls to one compiler that keeps a
stack; every call gives an answer or fails, and the next call finds the stack that it leaves.
-/

namespace ApiDecl

open Syntax

namespace SchemaCompiler

/-! ## Routes -/

variable {m : Type → Type} [Monad m] [MonadLiftT Traced m] [MonadExceptOf Error m]

/-- The parameter that a field is at a place, if it has a tag entry with a name for it. -/
def parameter? (k : SchemaCompiler m) (owner struct : String) (f : Field) (place : ParameterPlace) :
    m (Option (ParameterPlace × Parameter)) := do
  match f.tag.lookup? place.name with
  | none => return none
  | some name =>
    if name.isEmpty then
      liftM (note (.parameterUnnamed owner place.name struct f.name))
      return none
    return some (place, ⟨name, ← k.fieldSchema f, f.tag.isRequired⟩)

/-- The parameters of a request: each visible field, at each place. -/
def parameters (k : SchemaCompiler m) (owner : String) (request : StructDescriptor) :
    m ParameterTable := do
  let visible := request.fields.filter (·.exported)
  let found ← visible.mapM fun f =>
    ParameterPlace.all.mapM (k.parameter? owner request.name f)
  return .ofList (found.flatMap fun row => row.filterMap id)

/-- The schema of a struct that is a body. -/
def bodySchema (k : SchemaCompiler m) (s : StructDescriptor) : m Schema :=
  k.structSchema s (some s.name)

/-- The route that a method of a service declares. -/
def route (k : SchemaCompiler m) (file group : String) (d : MethodDecl) : m Route := do
  let name := plainName d.name
  let owner := group ++ "." ++ name
  let doc ← liftExcept (RouteDoc.ofLines owner (docLines file d.attributes))
  let some (method, path, location) := doc.route | throw (.missingRoute owner)
  let (input, output) ← liftExcept ((d.signature? file).mapError (Error.signature owner))
  let request ← k.catalog.routeStruct? input
  let answer ← k.catalog.routeStruct? output
  let parameters ← request.elim (return {}) (k.parameters owner)
  let body := if method = .get then none else request
  let requestBody ← body.mapM k.bodySchema
  let response ← answer.mapM k.bodySchema
  liftM (note (.routeDone owner method path))
  return {
    name, method, path, description := "\n".intercalate doc.description, code := doc.code,
    input, output, parameters, requestBody, response, location
  }

/-- The group that a service declares. Of several methods with one name the last one counts. -/
def group (k : SchemaCompiler m) (file : String) (t : TraitDecl) : m RouteGroup := do
  let name := plainName t.name
  liftM (note (.groupStarted name file))
  let doc ← liftExcept (GroupDoc.ofLines name (docLines file t.attributes))
  let routes ← t.methods.mapM (k.route file name)
  return ⟨name, "\n".intercalate doc.description, doc.basePath,
    routes.foldl (fun found r => putByKey Route.name r found) []⟩

/-- The groups of some files, in order. -/
def groups (k : SchemaCompiler m) (files : List SourceFile) : m (List RouteGroup) := do
  let groups ← files.mapM fun f => (f.traits.filter Catalog.isService).mapM (k.group f.path)
  let groups := groups.flatten
  liftM (note (.routesDone groups.length (routeCount groups)))
  return groups

end SchemaCompiler

/-! ## Calls -/

/-- What a compiler can be asked for. -/
inductive CompilerCall where
  /-- The definitions. -/
  | definitions
  /-- The schema of a struct, under a name if there is one. -/
  | struct (s : StructDescriptor) (name : Option String)
  /-- The schema of a field, and whether the field is required. -/
  | field (f : Field)
  /-- The groups of routes of some files. -/
  | routes (files : List SourceFile)

/-- What a compiler answers. -/
inductive CompilerAnswer where
  /-- The definitions. -/
  | definitions (definitions : List Definition)
  /-- The schema of a struct. -/
  | struct (schema : Schema)
  /-- The schema of a field, and whether the field is required. -/
  | field (schema : Schema) (required : Bool)
  /-- The groups of routes. -/
  | routes (groups : List RouteGroup)

/-- Answers a call. -/
def SchemaCompiler.answer {m : Type → Type} [Monad m] [MonadLiftT Traced m] [MonadExceptOf Error m]
    (k : SchemaCompiler m) : CompilerCall → m CompilerAnswer
  | .definitions => return .definitions (← k.definitions)
  | .struct s name => return .struct (← k.structSchema s name)
  | .field f => return .field (← k.fieldSchema f) f.tag.isRequired
  | .routes files => return .routes (← k.groups files)

/-- Answers calls one after the other, and tells the stack behind each. -/
def Catalog.session (c : Catalog) (calls : List CompilerCall) :
    StateT (List String) Traced (List (Except Error CompilerAnswer × List String)) :=
  calls.mapM fun call => do
    let answer ← (c.stackCompiler.answer call).run
    return (answer, ← get)

end ApiDecl
