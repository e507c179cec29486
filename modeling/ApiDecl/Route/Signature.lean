import ApiDecl.Catalog.Classify

/-!
# Signatures of route handlers

A route handler takes a context and a request, and gives `Result<Response, Error>`. The request is a
reference to a struct, and the response is a struct; either may be empty, which is written `()` or
as a type named `Empty`.
-/

namespace ApiDecl

open Syntax

/-- The name of types without content. -/
def emptyName : String := "Empty"

/-- The name of results. -/
def resultName : String := "Result"

/-- The name of the errors of handlers. -/
def errorName : String := "Error"

namespace Syntax.TypeExpr

/-- The last segment of a path. -/
def lastSegment? : TypeExpr → Option PathSegment
  | path _ segments | projection _ _ segments => segments.getLast?
  | _ => none

/-- The name at the end of a path. -/
def lastName? (t : TypeExpr) : Option String := t.lastSegment?.map (·.name)

/-- Whether a type has no content, whatever round brackets are around it. -/
def isEmptyType : TypeExpr → Bool
  | tuple elements _ => elements.isEmpty
  | paren inner => inner.isEmptyType
  | t => t.lastName? == some emptyName

/-- The types of a result and its error. -/
def resultTypes? (t : TypeExpr) : Option (TypeExpr × TypeExpr) :=
  match t.lastSegment? with
  | some s =>
    if s.name == resultName then
      match s.typeArguments with
      | [ok, error] => some (ok, error)
      | _ => none
    else none
  | none => none

/-- The name of the struct that a type stands for. -/
def structName? (file : String) (t : TypeExpr) : Option TypeName :=
  match (classify file true t).outcome.1 with
  | .ok (.named name) => some name
  | _ => none

/-- The struct of a request type, `none` if it is empty. -/
def request? (file : String) (t : TypeExpr) : Except SignatureFault (Option TypeName) :=
  if t.isEmptyType then .ok none
  else match t with
    | reference _ _ target =>
      if target.isEmptyType then .ok none
      else match target.structName? file with
        | some name => .ok (some name)
        | none => .error .requestNotStruct
    | _ => .error .requestByValue

/-- The struct of a response type, `none` if it is empty. -/
def response? (file : String) (t : TypeExpr) : Except SignatureFault (Option TypeName) :=
  if t.isEmptyType then .ok none
  else match t.structName? file with
    | some name => .ok (if name.base == emptyName then none else some name)
    | none => .error .responseNotStruct

end Syntax.TypeExpr

/-- The structs of the request and the response of a method that is a route handler. -/
def Syntax.MethodDecl.signature? (file : String) (m : MethodDecl) :
    Except SignatureFault (Option TypeName × Option TypeName) := do
  let [_, request] := m.parameters | throw (.parameterCount m.parameters.length)
  let input ← request.request? file
  let some result := m.result | throw .noResult
  let some (ok, error) := result.resultTypes? | throw .resultShape
  if error.lastName? ≠ some errorName then throw .errorType
  return (input, ← ok.response? file)

end ApiDecl
