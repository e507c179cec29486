import ApiDecl.Catalog.Path
import ApiDecl.Event
import ApiDecl.Schema.Basic

/-!
# Schemas of structs

The schema of a struct lists its visible fields under their names in schemas. A field whose type
names a struct gets the schema of that struct: a reference if the struct is a definition, and else
the struct written out in place. Structs that are being written out form a path; a struct that would
have to be written out inside itself is an error, which tells that path.
-/

namespace ApiDecl

namespace Catalog

/-- A struct that a name denotes is found by its own name. -/
theorem name_mem_of_get? {c : Catalog} {name : TypeName} {s : StructDescriptor}
    (h : c.get? name = some s) : s.name ∈ c.names :=
  name_of_find? h ▸ mem_names_of_find? h

/-- The properties of a schema with one more at the end of their order. -/
def addProperty (schema : Schema) (name : String) (property : Schema) : Schema :=
  { schema with
    order := schema.order ++ [name]
    properties := putByKey (·.1) (name, property) schema.properties }

/-- What a field adds to the schema of its type: its documentation. -/
def describe (doc : String) (schema : Schema) : Schema :=
  if doc.isEmpty then schema else { schema with description := doc }

/-- What a property adds to the schema of its field: whether it is required. -/
def require (name : String) (tag : Tag) (schema : Schema) : Schema :=
  if tag.isRequired then { schema with required := [name] } else schema

mutual

/-- The schema of a struct that is written out, on the path of structs around it. -/
def objectSchema (c : Catalog) (path : List String) : StructDescriptor → Compile Schema
  | ⟨_, fields, _, _⟩ => propertySchemas c path (Schema.typed "object") fields
termination_by s => (c.remaining path, sizeOf s)

/-- A schema with properties added for the visible fields that have a name in schemas. -/
def propertySchemas (c : Catalog) (path : List String) (schema : Schema) :
    List Field → Compile Schema
  | [] => return schema
  | ⟨_, type, tag, doc, exported⟩ :: rest =>
    match exported, tag.schemaName? with
    | true, some name => do
      let property := describe doc (← typeSchema c path type)
      propertySchemas c path (addProperty schema name (require name tag property)) rest
    | _, _ => propertySchemas c path schema rest
termination_by fields => (c.remaining path, sizeOf fields)

/-- The schema of a type. -/
def typeSchema (c : Catalog) (path : List String) : FieldType → Compile Schema
  | .scalar s => return Schema.typed s.kind.name
  | .named name => do
    if name.isDateTime then return Schema.dateTime
    match h : c.get? name with
    | none =>
      liftM (note (.schemaUnknown name.toText))
      return Schema.empty
    | some s =>
      if s.isDefinition then return Schema.referTo (definitionId s.name)
      if fresh : s.name ∈ path then throw (.recursion (path ++ [s.name]))
      else
        have := remaining_append_lt (name_mem_of_get? h) fresh
        objectSchema c (path ++ [s.name]) s
  | .map _ => return Schema.dictionary
  | .array none => return Schema.list Schema.empty
  | .array (some element) => do
    if element.isByte then return Schema.typed "string"
    return Schema.list (← typeSchema c path element)
  | .struct inner => objectSchema c path inner
termination_by t => (c.remaining path, sizeOf t)

end

/-- The schema of a struct that is written out, under a name if it has one. -/
def inlineSchema (c : Catalog) (s : StructDescriptor) (name : Option String) : Compile Schema :=
  c.objectSchema name.toList s

/-- The schema of a struct: a reference if it has a name and is a definition, and else the struct
written out. -/
def structSchema (c : Catalog) (s : StructDescriptor) (name : Option String) : Compile Schema :=
  match name, s.isDefinition with
  | some name, true => return Schema.referTo (definitionId name)
  | _, _ => c.inlineSchema s name

/-- The schema of a field, with its documentation. -/
def fieldSchema (c : Catalog) (f : Field) : Compile Schema := do
  return describe f.doc (← c.typeSchema [] f.type)

/-- The definition of a struct. -/
def definition (c : Catalog) (s : StructDescriptor) : Compile Definition := do
  liftM (note (.definitionStarted s.name))
  return ⟨definitionId s.name, s.name, ← c.inlineSchema s (some s.name)⟩

/-- The definitions of a table, in the order of their names. -/
def definitions (c : Catalog) : Compile (List Definition) := do
  let definitions ← (c.structs.filter (·.isDefinition)).mapM c.definition
  liftM (note (.definitionsDone definitions.length))
  return definitions

end Catalog

end ApiDecl
