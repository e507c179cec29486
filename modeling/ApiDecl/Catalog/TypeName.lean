import ApiDecl.Text.Split

/-!
# Names of types

A type is named by its last path segment; the segments in front of it only tell where it is found.
-/

namespace ApiDecl

/-- A possibly qualified name of a type. -/
structure TypeName where
  /-- The path segments in front of the last one. -/
  qualifiers : List String
  /-- The last path segment. -/
  base : String
  deriving Repr, DecidableEq, Inhabited

namespace TypeName

/-- Whether the name is more than its last segment. -/
def isQualified (n : TypeName) : Bool := !n.qualifiers.isEmpty

/-- The segments with `::` between them. -/
def toText (n : TypeName) : String := "::".intercalate (n.qualifiers ++ [n.base])

/-- The name written by a text: its base is what follows the last `::`. -/
def ofText (text : String) : TypeName :=
  match Text.splitLastPath text.toList.reverse with
  | (last, none) => ⟨[], String.ofList last.reverse⟩
  | (last, some before) => ⟨[String.ofList before.reverse], String.ofList last.reverse⟩

/-- The names of types that are points in time. -/
def dateTimeNames : List String :=
  ["DateTime", "NaiveDateTime", "OffsetDateTime", "PrimitiveDateTime", "SystemTime"]

/-- Whether a name denotes a point in time, by its last segment. -/
def isDateTime (n : TypeName) : Bool := dateTimeNames.contains n.base

end TypeName

end ApiDecl
