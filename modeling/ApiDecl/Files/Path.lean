import ApiDecl.Text.Split

/-!
# Paths

A path is a text with slashes between its steps. Empty steps and dots lead nowhere, except that a
dot at the start is kept as it is written; two dots lead to the directory around.
-/

namespace ApiDecl.Path

/-- The step that stays in a directory. -/
def here : String := "."

/-- The step to the directory around. -/
def above : String := ".."

/-- Whether a path starts outside the working directory. -/
def isAbsolute (path : String) : Bool := path.toList.head? == some '/'

/-- The steps of a path as they are written; an empty step stays where it is. -/
def steps (path : String) : List String :=
  (Text.splitOn '/' path).map fun s => if s = "" then here else s

/-- The steps of a path that matter for its name: the slash at the start and a dot there, and then
all that lead somewhere. -/
def components (path : String) : List String :=
  match Text.splitOn '/' path with
  | [] => []
  | first :: rest =>
    let rest := rest.filter fun s => s ≠ "" ∧ s ≠ here
    if first ≠ "" then first :: rest
    else if path = "" then []
    else "/" :: rest

/-- The name of what a path leads to, if its last component is a name. -/
def fileName? (path : String) : Option String :=
  (components path).getLast?.filter fun s => s ≠ here ∧ s ≠ above ∧ s ≠ "/"

/-- A path below another one. -/
def join (base name : String) : String :=
  if base = "" then name
  else if base.toList.getLast? = some '/' then base ++ name
  else base ++ "/" ++ name

/-- A path without its last component, if it has one. -/
def parent? (path : String) : Option String :=
  match components path with
  | [] => none
  | ["/"] => none
  | steps => some (steps.dropLast.foldl join "")

/-- What follows the last dot of a name, if the name does not start with that dot. -/
def extension? (name : String) : Option String :=
  match (Text.splitOn '.' name).reverse with
  | [] => none
  | [_] => none
  | [_, ""] => none
  | last :: _ => some last

end ApiDecl.Path
