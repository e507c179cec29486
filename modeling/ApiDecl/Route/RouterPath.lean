import ApiDecl.Text.Split

/-!
# Paths of a router

Routes are declared with their path parameters in braces, as in `/widgets/{id}`. A router has them
behind a colon, as in `/widgets/:id`. A segment is a parameter if it starts with an opening brace
and ends with a closing one.
-/

namespace ApiDecl

/-- A segment of a declared path as a router has it. -/
def routerSegment : List Char → List Char
  | '{' :: rest =>
    if rest.getLast? = some '}' then ':' :: rest.dropLast else '{' :: rest
  | segment => segment

/-- A declared path as a router has it. -/
def routerPath (path : String) : String :=
  String.ofList (['/'].intercalate ((Text.splitWhere (· == '/') path.toList).map routerSegment))

end ApiDecl
