import ApiDecl.Catalog.Scalar
import ApiDecl.Catalog.TypeName
import ApiDecl.Keyed
import ApiDecl.Tag.Basic

/-!
# Structs and the catalog

A struct has fields with types, and may embed other structs by name until the table it belongs to is
sealed. The catalog is the sealed table of all structs, in the order of their names.
-/

namespace ApiDecl

mutual

/-- The meaning of a type expression. -/
inductive FieldType where
  /-- A primitive type. -/
  | scalar (s : Scalar)
  /-- A type known by its name only. -/
  | named (name : TypeName)
  /-- A sequence, with its element type if that is known. -/
  | array (element : Option FieldType)
  /-- A dictionary, with its value type if that is known. -/
  | map (value : Option FieldType)
  /-- A struct written in place. -/
  | struct (inner : StructDescriptor)

/-- A field with a tag. -/
structure Field where
  /-- The name of the field. -/
  name : String
  /-- What the field holds. -/
  type : FieldType
  /-- The tag, which is not empty. -/
  tag : Tag
  /-- The documentation of the field. -/
  doc : String
  /-- Whether the field is visible to everyone. -/
  exported : Bool

/-- A struct. -/
structure StructDescriptor where
  /-- The name of the struct. -/
  name : String
  /-- The fields, in order and with different names. -/
  fields : List Field
  /-- Whether the struct is a definition of its own. -/
  isDefinition : Bool
  /-- The names of the structs that are embedded but not merged yet. -/
  embeds : List String

end

instance : Inhabited FieldType := ⟨.array none⟩
instance : Inhabited Field := ⟨⟨"", default, default, "", false⟩⟩
instance : Inhabited StructDescriptor := ⟨⟨"", [], false, []⟩⟩

namespace FieldType

/-- How a type is called in messages. -/
def typeName : FieldType → String
  | scalar s => s.name
  | named name => name.toText
  | array _ => "array"
  | map _ => "map"
  | struct _ => "struct"

/-- Whether a type is a byte, whose sequences are texts in schemas. -/
def isByte : FieldType → Bool
  | scalar .u8 => true
  | _ => false

end FieldType

/-! ## Catalogs -/

/-- A table of structs, in the order of their names. -/
structure Catalog where
  /-- The structs, with strictly increasing names. -/
  structs : List StructDescriptor
  deriving Inhabited

namespace Catalog

/-- A catalog without structs. -/
def empty : Catalog := ⟨[]⟩

/-- The names of the structs, in order. -/
def names (c : Catalog) : List String := c.structs.map (·.name)

/-- The struct of exactly this name. -/
def find? (c : Catalog) (name : String) : Option StructDescriptor :=
  c.structs.find? fun s => s.name == name

/-- The struct that a name denotes, by its last segment. -/
def get? (c : Catalog) (name : TypeName) : Option StructDescriptor := c.find? name.base

/-- The number of structs. -/
def size (c : Catalog) : Nat := c.structs.length

/-- Adds a struct, in place of one with the same name. -/
def insert (c : Catalog) (s : StructDescriptor) : Catalog :=
  ⟨putSorted StructDescriptor.name s c.structs⟩

/-- The struct that is added last is found, and all others as before. -/
theorem find?_insert (c : Catalog) (s : StructDescriptor) (name : String) :
    (c.insert s).find? name = if s.name = name then some s else c.find? name :=
  find?_putSorted s c.structs name

/-- Adding a struct adds its name and no other. -/
theorem mem_names_insert {c : Catalog} {s : StructDescriptor} {name : String} :
    name ∈ (c.insert s).names ↔ name = s.name ∨ name ∈ c.names := mem_map_putSorted

end Catalog

end ApiDecl
