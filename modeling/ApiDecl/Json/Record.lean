import ApiDecl.Json.Reader

/-!
# Reading records from JSON

A record is written as an object whose members have the names of its fields, or as a list of its
fields in order. In an object, members with other names are skipped without a look at their values,
and no field may occur twice; in a list nothing may be left over. A field that may be absent may
also be null.

Every list and object takes one of the levels that may be nested; a reader is given the number of
levels that are left.
-/

namespace ApiDecl.Json

/-- A reader of values that may have a given number of levels. -/
abbrev NodeReader (α : Type) := Nat → Node → Option α

/-- The fields of a record that are present, by name. -/
abbrev Record := List (String × Node)

namespace Node

/-- A text. -/
def text? : Node → Option String
  | .string units => textOf? units
  | _ => none

/-- A truth value. -/
def bool? : Node → Option Bool
  | .bool b => some b
  | _ => none

/-- A whole number below a limit. -/
def natBelow? (limit : Nat) : Node → Option Nat
  | .number n =>
    match n.value? with
    | some (.whole value _) => if 0 ≤ value ∧ value < limit then some value.toNat else none
    | _ => none
  | _ => none

/-- An unsigned number of 64 bits. -/
def word? (node : Node) : Option UInt64 := (node.natBelow? wordLimit).map UInt64.ofNat

/-- The first number that does not fit 16 bits. -/
def halfwordLimit : Nat := 0x10000

/-- An unsigned number of 16 bits. -/
def halfword? (node : Node) : Option UInt16 := (node.natBelow? halfwordLimit).map UInt16.ofNat

/-- A value that may be null. -/
def orNull? {α : Type} (read : Node → Option α) : Node → Option (Option α)
  | .null => some none
  | node => (read node).map some

/-- One of several names: a text, or an object whose only member has the name and is null. -/
def choice? (levels : Nat) : Node → Option String
  | .string units => textOf? units
  | .object [(name, .null)] => if levels = 0 then none else textOf? name
  | _ => none

/-- A list. -/
def list? {α : Type} (read : NodeReader α) : NodeReader (List α)
  | inner + 1, .array elements => elements.mapM (read inner)
  | _, _ => none

/-- The members of an object. -/
def members? {α : Type} (read : NodeReader α) : NodeReader (List (String × α))
  | inner + 1, .object members =>
    members.mapM fun (name, node) => do return (← textOf? name, ← read inner node)
  | _, _ => none

/-- A table: the members of an object, in the order in which their names first occur. Of several
members with one name the last one counts. -/
def table? {α : Type} (read : NodeReader α) (levels : Nat) (node : Node) :
    Option (List (String × α)) := do
  return (← node.members? read levels).foldl (fun found m => putByKey (·.1) m found) []

/-- The fields of an object that have one of some names, if no name occurs twice. -/
def fieldsOf? (names : List String) : List (List TextUnit × Node) → Option Record
  | [] => some []
  | (name, node) :: rest => do
    let name ← textOf? name
    let others ← fieldsOf? names rest
    if !names.contains name then return others
    else if others.any (·.1 == name) then none
    else return (name, node) :: others

/-- A record with the given fields, in order. In a list all of them have to be there, unless
`mayEndEarly` lets the last ones be absent. -/
def record? (names : List String) (mayEndEarly : Bool) : Node → Option Record
  | .object members => fieldsOf? names members
  | .array elements =>
    if names.length < elements.length then none
    else if elements.length < names.length && !mayEndEarly then none
    else some (names.zip elements)
  | _ => none

end Node

namespace Record

/-- A field that has to be there. -/
def required? {α : Type} (r : Record) (name : String) (read : Node → Option α) : Option α := do
  read (← r.lookup name)

/-- A field with a default. -/
def withDefault? {α : Type} (r : Record) (name : String) (default : α) (read : Node → Option α) :
    Option α :=
  match r.lookup name with
  | none => some default
  | some node => read node

/-- A field that may be absent or null. -/
def optional? {α : Type} (r : Record) (name : String) (read : Node → Option α) :
    Option (Option α) :=
  r.withDefault? name none (Node.orNull? read)

end Record

end ApiDecl.Json
