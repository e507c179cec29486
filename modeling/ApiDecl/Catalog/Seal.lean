import ApiDecl.Catalog.Collect
import ApiDecl.Catalog.Path

/-!
# Sealing the table of structs

Sealing merges embedded structs into their hosts. A struct is sealed after the structs it embeds,
and takes over those of their fields whose names it does not have yet, behind its own; inline
structs are treated alike, within the struct around them. An embedding that leads back to a struct
on the way is ignored, and one of an unknown struct contributes nothing.
-/

namespace ApiDecl

/-- A computation on the structs that are sealed so far. -/
abbrev Sealing := StateT Catalog Traced

/-- Adds a field unless there is one with its name. -/
def inheritField (fields : List Field) (f : Field) : List Field :=
  if fields.any (·.name == f.name) then fields else fields ++ [f]

/-- The fields of a host: its own, and behind them the inherited ones with new names. -/
def inheritFields (own inherited : List Field) : List Field := inherited.foldl inheritField own

mutual

/-- Seals a struct of the table that is not on the path yet, unless it is sealed already. -/
def sealStruct (raw : Catalog) (path : List String) (name : String) (fresh : name ∉ path) :
    Sealing Unit := do
  if ((← get).find? name).isSome then return
  match h : raw.find? name with
  | none => return
  | some s =>
    have := Catalog.remaining_append_lt (Catalog.mem_names_of_find? h) fresh
    let s ← sealBody raw (path ++ [name]) s
    modify (·.insert s)
termination_by (raw.remaining path, 0)

/-- A struct with its embeddings merged, at the end of a path. -/
def sealBody (raw : Catalog) (path : List String) : StructDescriptor → Sealing StructDescriptor
  | ⟨name, fields, isDefinition, embeds⟩ => do
    let inherited ← sealEmbeds raw path name embeds
    let own ← sealFields raw path fields
    return ⟨name, inheritFields own inherited, isDefinition, []⟩
termination_by s => (raw.remaining path, sizeOf s)

/-- The fields that a host inherits from the structs it embeds, in order. -/
def sealEmbeds (raw : Catalog) (path : List String) (owner : String) :
    List String → Sealing (List Field)
  | [] => return []
  | target :: rest => do
    let fields ←
      if h : target ∈ path then do
        note (.embeddingCycle path target)
        pure []
      else do
        sealStruct raw path target h
        match (← get).find? target with
        | some s => pure s.fields
        | none =>
          note (.embedUnknown target owner)
          pure []
    return fields ++ (← sealEmbeds raw path owner rest)
termination_by embeds => (raw.remaining path, sizeOf embeds)

/-- Fields with the inline structs in their types sealed. -/
def sealFields (raw : Catalog) (path : List String) : List Field → Sealing (List Field)
  | [] => return []
  | ⟨name, type, tag, doc, exported⟩ :: rest => do
    let type ← sealType raw path type
    return ⟨name, type, tag, doc, exported⟩ :: (← sealFields raw path rest)
termination_by fields => (raw.remaining path, sizeOf fields)

/-- A type with the inline structs in it sealed. -/
def sealType (raw : Catalog) (path : List String) : FieldType → Sealing FieldType
  | .struct inner => return .struct (← sealBody raw path inner)
  | .array (some element) => return .array (some (← sealType raw path element))
  | .map (some value) => return .map (some (← sealType raw path value))
  | .array none => return .array none
  | .map none => return .map none
  | .scalar s => return .scalar s
  | .named name => return .named name
termination_by t => (raw.remaining path, sizeOf t)

end

/-- The sealed table: every struct, with its embeddings merged. -/
def Catalog.seal (raw : Catalog) : Traced Catalog := do
  let (_, c) ← (raw.names.forM fun name => sealStruct raw [] name List.not_mem_nil).run .empty
  note (.catalogSealed c.size)
  return c

/-- The sealed table of the visible structs of some files. -/
def Catalog.collect (files : List Syntax.SourceFile) : Traced Catalog := do
  (← Catalog.collectRaw files).seal

end ApiDecl
