import ApiDecl.Schema.OfStruct

/-!
# Compilers

A compiler makes the schemas of one table, for any number of calls. The compiler of a table
(`Catalog.compiler`) is told the path to where a type stands. Another one (`Catalog.stackCompiler`)
keeps the names of the structs that are being written out on a stack of its own: it pushes a name
before the fields are compiled, and pops it behind them whether that failed or not.
-/

namespace ApiDecl

/-- What makes the schemas of a table. -/
structure SchemaCompiler (m : Type → Type) where
  /-- The table. -/
  catalog : Catalog
  /-- Writes a struct out, under a name if it has one. -/
  inlineSchema : StructDescriptor → Option String → m Schema
  /-- Makes the schema of a type. -/
  typeSchema : FieldType → m Schema

namespace SchemaCompiler

variable {m : Type → Type} [Monad m] [MonadLiftT Traced m]

/-- The schema of a struct: a reference if it has a name and is a definition, and else the struct
written out. -/
def structSchema (k : SchemaCompiler m) (s : StructDescriptor) (name : Option String) : m Schema :=
  match name, s.isDefinition with
  | some name, true => return Schema.referTo (definitionId name)
  | _, _ => k.inlineSchema s name

/-- The schema of a field, with its documentation. -/
def fieldSchema (k : SchemaCompiler m) (f : Field) : m Schema := do
  return Catalog.describe f.doc (← k.typeSchema f.type)

/-- The definition of a struct. -/
def definition (k : SchemaCompiler m) (s : StructDescriptor) : m Definition := do
  liftM (note (.definitionStarted s.name))
  return ⟨definitionId s.name, s.name, ← k.inlineSchema s (some s.name)⟩

/-- The definitions of the table, in the order of their names. -/
def definitions (k : SchemaCompiler m) : m (List Definition) := do
  let definitions ← (k.catalog.structs.filter (·.isDefinition)).mapM k.definition
  liftM (note (.definitionsDone definitions.length))
  return definitions

end SchemaCompiler

/-- The compiler that is told the paths. -/
def Catalog.compiler (c : Catalog) : SchemaCompiler Compile := ⟨c, c.inlineSchema, c.typeSchema []⟩

/-! ## Compiling with a stack -/

/-- A computation with a stack of names, which stays if the computation fails. -/
abbrev Stacked := ExceptT Error (StateT (List String) Traced)

namespace Stacked

/-- Does something with a name pushed, and pops it again whether that failed or not. -/
def pushed {α : Type} (name : String) (body : Stacked α) : Stacked α := do
  modify (· ++ [name])
  let result ← ExceptT.lift body.run
  modify List.dropLast
  liftExcept result

/-- Writes a struct out under a name, which is an error if the name is on the stack already. -/
def writeOut {α : Type} (name : String) (body : Stacked α) : Stacked α := do
  let stack ← get
  if name ∈ stack then throw (.recursion (stack ++ [name]))
  else pushed name body

mutual

/-- The schema of a struct that is written out; below it, so many structs may be entered. -/
def objectSchema (c : Catalog) (levels : Nat) : StructDescriptor → Stacked Schema
  | ⟨_, fields, _, _⟩ => propertySchemas c levels (Schema.typed "object") fields
termination_by s => (levels, sizeOf s)

/-- A schema with properties added for the visible fields that have a name in schemas. -/
def propertySchemas (c : Catalog) (levels : Nat) (schema : Schema) : List Field → Stacked Schema
  | [] => return schema
  | ⟨_, type, tag, doc, exported⟩ :: rest =>
    match exported, tag.schemaName? with
    | true, some name => do
      let property := Catalog.describe doc (← typeSchema c levels type)
      propertySchemas c levels
        (Catalog.addProperty schema name (Catalog.require name tag property)) rest
    | _, _ => propertySchemas c levels schema rest
termination_by fields => (levels, sizeOf fields)

/-- The schema of a type. -/
def typeSchema (c : Catalog) : Nat → FieldType → Stacked Schema
  | _, .scalar s => return Schema.typed s.kind.name
  | levels, .named name => do
    if name.isDateTime then return Schema.dateTime
    match c.get? name with
    | none =>
      liftM (note (.schemaUnknown name.toText))
      return Schema.empty
    | some s =>
      if s.isDefinition then return Schema.referTo (definitionId s.name)
      match levels with
      | 0 => writeOut s.name (throw (.recursion [s.name]))
      | below + 1 => writeOut s.name (objectSchema c below s)
  | _, .map _ => return Schema.dictionary
  | _, .array none => return Schema.list Schema.empty
  | levels, .array (some element) => do
    if element.isByte then return Schema.typed "string"
    return Schema.list (← typeSchema c levels element)
  | levels, .struct inner => objectSchema c levels inner
termination_by levels t => (levels, sizeOf t)

end

/-- The schema of a struct that is written out, on the stack if it has a name. Every struct of the
table is entered once at most. -/
def inlineSchema (c : Catalog) (s : StructDescriptor) : Option String → Stacked Schema
  | none => objectSchema c c.size s
  | some name => writeOut name (objectSchema c c.size s)

end Stacked

/-- The compiler that keeps a stack. -/
def Catalog.stackCompiler (c : Catalog) : SchemaCompiler Stacked :=
  ⟨c, Stacked.inlineSchema c, Stacked.typeSchema c c.size⟩

end ApiDecl
