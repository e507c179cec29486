import ApiDecl.Catalog.Classify

/-!
# Collecting structs

The visible structs of all files are collected into one table, file by file. A struct without named
fields, or with neither tagged nor embedded fields, is left out; of two structs with one name the
later one stays.
-/

namespace ApiDecl

open Syntax

/-- The table entry of a declared struct, if it has one. -/
def structOf? (file : String) (d : StructDecl) : Traced (Option StructDescriptor) := do
  let name := plainName d.name
  match d.fields with
  | none =>
    note (.structUnnamed name)
    return none
  | some fields =>
    let s ← collectFields file name fields
    if s.fields.isEmpty && s.embeds.isEmpty then
      note (.structUntagged name)
      return none
    return some { s with isDefinition := hasSchemaMarker (docLines file d.attributes) }

/-- Adds a declared struct to a table. -/
def Catalog.collectStruct (file : String) (c : Catalog) (d : StructDecl) : Traced Catalog := do
  match ← structOf? file d with
  | none => return c
  | some s =>
    note (.structCollected s.name s.fields.length s.embeds.length)
    if (c.find? s.name).isSome then note (.structRepeated s.name file)
    return c.insert s

/-- Adds the visible structs of a file to a table. -/
def Catalog.collectFile (c : Catalog) (f : SourceFile) : Traced Catalog :=
  f.structs.foldlM (Catalog.collectStruct f.path) c

/-- The table of the visible structs of some files, with their embeddings still to be merged. -/
def Catalog.collectRaw (files : List SourceFile) : Traced Catalog :=
  files.foldlM Catalog.collectFile .empty

end ApiDecl
