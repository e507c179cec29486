import ApiDecl.Text.Blank

/-!
# Field tags

A field takes part in the API if it has a tag: an ordered list of entries, each a key with a value.
A key may occur more than once; the first entry of a key decides. The entry `json` names the field
in schemas, and the entry `binding` says whether it is required.
-/

namespace ApiDecl

/-- The entries of a field, in order. -/
structure Tag where
  /-- Keys with their values; a key without a value has the empty one. -/
  entries : List (String × String)
  deriving Repr, DecidableEq, Inhabited

namespace Tag

/-- The key of the name in schemas. -/
def nameKey : String := "json"

/-- The key of validation rules. -/
def validationKey : String := "binding"

/-- Whether a tag has no entries. -/
def isEmpty (t : Tag) : Bool := t.entries.isEmpty

/-- The value of the first entry of a key. -/
def lookup? (t : Tag) (key : String) : Option String := t.entries.lookup key

/-- The value of the first entry of a key, empty if there is none. -/
def get (t : Tag) (key : String) : String := (t.lookup? key).getD ""

/-- The name of the field in schemas: the `json` entry up to its first comma. An empty name and a
dash are no name. -/
def schemaName? (t : Tag) : Option String :=
  let name := Text.trim (((Text.splitOn ',' (t.get nameKey)).head?).getD "")
  if name = "" ∨ name = "-" then none else some name

/-- Whether the field is required: the `binding` entry has the word `required` between commas and
blanks. -/
def isRequired (t : Tag) : Bool :=
  let pieces := Text.splitWhere (fun c => c == ',' || Text.isBlank c) (t.get validationKey).toList
  pieces.contains "required".toList

end Tag

end ApiDecl
