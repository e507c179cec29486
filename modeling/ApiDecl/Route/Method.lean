/-!
# HTTP methods

The seven methods that a route may answer to. A method is named without regard to ASCII case.
-/

namespace ApiDecl

/-- An HTTP method. -/
inductive HttpMethod where
  /-- Reads a resource. -/
  | get
  /-- Creates a resource or starts an action. -/
  | post
  /-- Replaces a resource. -/
  | put
  /-- Removes a resource. -/
  | delete
  /-- Changes a part of a resource. -/
  | patch
  /-- Reads the headers of a resource. -/
  | head
  /-- Asks for the methods of a resource. -/
  | options
  deriving Repr, DecidableEq, Inhabited

namespace HttpMethod

/-- All methods. -/
def all : List HttpMethod := [get, post, put, delete, patch, head, options]

/-- The name of a method, in capitals. -/
def name : HttpMethod → String
  | get => "GET"
  | post => "POST"
  | put => "PUT"
  | delete => "DELETE"
  | patch => "PATCH"
  | head => "HEAD"
  | options => "OPTIONS"

/-- The method with a given name, in any case. -/
def ofName? (text : String) : Option HttpMethod :=
  let capitals := String.ofList (text.toList.map Char.toUpper)
  all.find? fun m => m.name == capitals

end HttpMethod

end ApiDecl
