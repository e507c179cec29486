import ApiDecl.Source.Position

/-!
# Errors

Everything that can stop a run, by its cause. `Error.message` is the text that is shown.
-/

namespace ApiDecl

/-- Why a file or directory could not be read or written. -/
inductive IoFault where
  /-- There is nothing at the path. -/
  | notFound
  /-- Something else is in the way of a new directory. -/
  | alreadyExists
  /-- A part of the path that has to be a directory is not one. -/
  | notDirectory
  /-- The path is a directory where a file is needed. -/
  | isDirectory
  /-- The file is not valid UTF-8. -/
  | invalidText
  deriving Repr, DecidableEq, Inhabited

/-- The text for a failed access. -/
def IoFault.message : IoFault → String
  | notFound => "No such file or directory (os error 2)"
  | alreadyExists => "File exists (os error 17)"
  | notDirectory => "Not a directory (os error 20)"
  | isDirectory => "Is a directory (os error 21)"
  | invalidText => "stream did not contain valid UTF-8"

/-- Why a directive line is refused. -/
inductive DirectiveFault where
  /-- A group directive without exactly one base path. -/
  | groupArguments (line : String)
  /-- A route directive without exactly a method and a path. -/
  | routeArguments (line : String)
  /-- A route directive whose method does not exist. -/
  | routeMethod (method line : String)
  /-- A code directive without exactly one argument. -/
  | codeArguments (line : String)
  /-- A code directive whose argument is not an HTTP status. -/
  | codeValue (argument : String)
  /-- A second route directive for one method. -/
  | secondRoute
  deriving Repr, DecidableEq, Inhabited

/-- The text for a refused directive. -/
def DirectiveFault.message : DirectiveFault → String
  | groupArguments line => s!"@group expects exactly one <basePath>, found `{line}`"
  | routeArguments line => s!"@route expects exactly <METHOD> <path>, found `{line}`"
  | routeMethod method line => s!"unknown HTTP method `{method}` in `{line}`"
  | codeArguments line => s!"@code expects exactly one status code, found `{line}`"
  | codeValue argument => s!"@code expects an HTTP status, found `{argument}`"
  | secondRoute => "duplicate @route directive"

/-- Why a method is no route handler. -/
inductive SignatureFault where
  /-- It does not have two parameters beside its receiver. -/
  | parameterCount (found : Nat)
  /-- Its request is a reference to something that is no struct. -/
  | requestNotStruct
  /-- Its request is neither a reference nor empty. -/
  | requestByValue
  /-- It has no declared result. -/
  | noResult
  /-- Its result is not a `Result` with two types. -/
  | resultShape
  /-- The second type of its result is not named `Error`. -/
  | errorType
  /-- The first type of its result is neither a struct nor empty. -/
  | responseNotStruct
  deriving Repr, DecidableEq, Inhabited

/-- The text for a refused signature. -/
def SignatureFault.message : SignatureFault → String
  | parameterCount found =>
    s!"expected a context and a request parameter, found {found} parameters"
  | requestNotStruct => "the request must be a reference to a struct"
  | requestByValue => "the request must be passed by reference (`&T`) or be `()`"
  | noResult => "missing return type"
  | resultShape => "the return type must be `Result<Response, Error>`"
  | errorType => "the error type must be named `Error`"
  | responseNotStruct => "the response must be a struct or `()`"

/-- What can stop a run. -/
inductive Error where
  /-- A file or directory could not be accessed. -/
  | io (fault : IoFault)
  /-- A declaration file does not parse. -/
  | parse (file : String) (fault : SyntaxError)
  /-- There is no HTTP method of this name. -/
  | unknownMethod (name : String)
  /-- The declarations are not in a directory. -/
  | notDirectory (path : String)
  /-- A directive line is malformed, or is one too many. -/
  | directive (location : Location) (owner : String) (fault : DirectiveFault)
  /-- A service method has no route. -/
  | missingRoute (route : String)
  /-- A service method is no route handler. -/
  | signature (route : String) (fault : SignatureFault)
  /-- A struct would have to be written out inside itself; the chain of structs leads to it. -/
  | recursion (chain : List String)
  /-- A type expression means nothing in a declaration. -/
  | unsupportedType (tokens : String)
  /-- An inline struct does not parse. -/
  | brokenInlineStruct (reason : String)
  deriving Repr, DecidableEq, Inhabited

/-- The text that is shown for an error. -/
def Error.message : Error → String
  | io fault => s!"IO error: {fault.message}"
  | parse file fault => s!"parse error in {file}: {fault.position.toText}: {fault.message}"
  | unknownMethod name => s!"invalid argument: unknown HTTP method `{name}`"
  | notDirectory path => s!"invalid argument: declaration path is not a directory: {path}"
  | directive location owner fault => s!"{location.toText}: {owner}: {fault.message}"
  | missingRoute route => s!"missing @route directive for {route}"
  | signature route fault =>
    s!"invalid method signature for {route}: {fault.message}; " ++
      "expected fn(&self, ctx, &Request) -> Result<Response, Error>"
  | recursion chain =>
    "recursive schema " ++ " -> ".intercalate chain ++
      "; mark one of these structs with @schema to emit a reference"
  | unsupportedType tokens => s!"unsupported type expression: {tokens}"
  | brokenInlineStruct reason => s!"unsupported type expression: object! body: {reason}"

end ApiDecl
