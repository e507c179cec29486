import ApiDecl.Doc.Line
import ApiDecl.Error
import ApiDecl.Route.Method

/-!
# Directives

A documentation line whose first word is `@group`, `@route`, `@code` or `@schema` is a directive.
Any other line with a word in it is plain text.
-/

namespace ApiDecl

/-- What a documentation line says. -/
inductive Directive where
  /-- The base path of a group. -/
  | group (basePath : String)
  /-- The method and the path of a route. -/
  | route (method : HttpMethod) (path : String)
  /-- The status of a successful answer. -/
  | code (status : Nat)
  /-- The struct is a definition of its own. -/
  | schema
  /-- Plain text. -/
  | text (line : String)
  deriving Repr, DecidableEq, Inhabited

/-- The number written by decimal digits after an optional plus sign. -/
def decimal? (text : String) : Option Nat :=
  let digits := match text.toList with
    | '+' :: rest => rest
    | cs => cs
  if digits.isEmpty ∨ !digits.all Char.isDigit then none
  else some (digits.foldl (fun n c => 10 * n + (c.toNat - '0'.toNat)) 0)

/-- The HTTP status that a text stands for. -/
def status? (text : String) : Option Nat :=
  (decimal? text).filter fun n => 100 ≤ n ∧ n ≤ 599

namespace DocLine

/-- The error for this line, in a declaration with a given name. -/
def error (line : DocLine) (owner : String) (fault : DirectiveFault) : Error :=
  .directive line.location owner fault

/-- What a line says, `none` if it is blank. -/
def directive? (line : DocLine) (owner : String) : Except Error (Option Directive) :=
  let text := Text.trim line.text
  match Text.words text with
  | [] => .ok none
  | "@group" :: arguments =>
    match arguments with
    | [path] => .ok (some (.group path))
    | _ => .error (line.error owner (.groupArguments text))
  | "@route" :: arguments =>
    match arguments with
    | [method, path] =>
      match HttpMethod.ofName? method with
      | some m => .ok (some (.route m path))
      | none => .error (line.error owner (.routeMethod method text))
    | _ => .error (line.error owner (.routeArguments text))
  | "@code" :: arguments =>
    match arguments with
    | [argument] =>
      match status? argument with
      | some status => .ok (some (.code status))
      | none => .error (line.error owner (.codeValue argument))
    | _ => .error (line.error owner (.codeArguments text))
  | "@schema" :: _ => .ok (some .schema)
  | _ => .ok (some (.text text))

end DocLine

/-- Whether a line marks its struct as a definition of its own. -/
def hasSchemaMarker (lines : List DocLine) : Bool :=
  lines.any fun line => (Text.words line.text).head? == some "@schema"

end ApiDecl
