import ApiDecl.Syntax.Parser.Path

/-!
# Types

A type is chosen by its first token. Paths, references, pointers, brackets and tuples become trees;
sums of bounds, anonymous types and function pointers are kept as tokens. A macro call named
`object` is an inline struct, and its body is read as the fields of one.
-/

namespace ApiDecl.Syntax.Parser

/-! ## Fields -/

/-- A struct or union without a name as the type of a field without a name. -/
def anonymousBody (g : Grammar) : Parser TypeExpr := do
  let (_, tokens) ← printing <| asWritten do
    discard anyWord
    discard (group .brace (g .namedFields))
  return .other tokens

/-- A named field of a struct body. -/
def namedField (g : Grammar) : Parser FieldDecl := do
  let attributes ← outerAttributes g
  let visible ← visibility
  let unnamed ← peek (Peek.keyword "_")
  let fieldName ← nameOr ["_"]
  symbol ":"
  let hasBody ← peek (Peek.oneOf [Peek.keyword "struct",
    Peek.followedBy (Peek.keyword "union") (Peek.group .brace)])
  let type ← if unnamed && hasBody then anonymousBody g else g (.type true)
  return ⟨attributes, fieldName, visible = .everywhere, type⟩

/-- The named fields of a struct body, without its braces. -/
def namedFields (g : Grammar) : Parser (List FieldDecl) := do
  return (← commaSeparated (namedField g)).1

/-! ## Paths -/

/-- The body of an inline struct, read on its own. -/
def inlineStruct (g : Grammar) (d : Delimiter) (body : List Token) : TypeExpr :=
  match runAll (g .namedFields) body with
  | .ok (fields, _) => .inlineStruct d body fields
  | .error e => .brokenInlineStruct d body e.message

/-- A type below another type: `<T>::Name` or `<T as Trait>::Name`. -/
def projection (g : Grammar) (inExpression : Bool) : Parser TypeExpr := do
  symbol "<"
  let base ← g (.type true)
  let (_, traitPath) ← printing do
    if ← optionalKeyword "as" then discard (path g false)
  symbol ">"
  symbol "::"
  let first ← pathSegment g inExpression
  let others ← manyWhile (Peek.symbol "::") do
    symbol "::"
    pathSegment g inExpression
  return .projection base traitPath (first :: others)

/-- A macro call after the path that names it. -/
def macroType (g : Grammar) (absolute : Bool) (segments : List PathSegment) : Parser TypeExpr := do
  symbol "!"
  let (d, body) ← anyGroup
  match absolute, segments with
  | false, [.plain "object"] => return inlineStruct g d body
  | _, _ =>
    return .other ((TypeExpr.path absolute segments).tokens ++
      [TypeExpr.markToken '!', TypeExpr.groupToken d body])

/-- A path, a macro call, or a sum that starts with a path. The path may have bound lifetimes, of
which a macro call keeps nothing. -/
def pathType (g : Grammar) (allowPlus : Bool) (lifetimes : Option Trace) : Parser TypeExpr := do
  if ← peek (Peek.symbol "<") then return ← projection g false
  let ((absolute, segments), t) ← tracing (path g false)
  let calls ← peek (Peek.butNot (Peek.symbol "!") (Peek.symbol "!="))
  if calls && isModulePath segments then return ← macroType g absolute segments
  leave ((lifetimes.getD .empty).append t)
  let ((sum, _), more) ← printing do
    if allowPlus then furtherBounds g .object else return (false, [])
  match lifetimes with
  | some l =>
    return if sum then .other (l.tokens ++ t.tokens ++ more)
      else .bareBound false (l.tokens ++ t.tokens)
  | none => return if sum then .other (t.tokens ++ more) else .path absolute segments

/-! ## Brackets -/

/-- The message about a trait object without a trait. -/
def objectMessage : String := "at least one trait is required for an object type"

/-- A trait object that starts with a lifetime. -/
def lifetimeObject (g : Grammar) : Parser TypeExpr := do
  let start ← here
  return .other (← printing (objectBounds g .object true start objectMessage)).2

/-- Bounds after the first one of a sum, each after a plus sign. -/
def plusBounds (g : Grammar) : Parser (List BoundKind) := manyWhile (Peek.symbol "+") do
  symbol "+"
  g (.bound .object)

/-- A relaxed bound in round brackets, or a sum that starts with one. -/
def relaxedType (g : Grammar) : Parser TypeExpr := do
  groupThen .paren (printing (traitBound g .object)) fun (_, bound) => do
    let (others, more) ← printing (plusBounds g)
    return if others.isEmpty then .bareBound true bound
      else .other (TypeExpr.groupToken .paren bound :: more)

/-- The bound that a type in round brackets is, if it is one. -/
def enclosedBound? : TypeExpr → Option (List Token)
  | .paren (.path absolute segments) => some (TypeExpr.path absolute segments).tokens
  | .paren (.bareBound _ bound) => some bound
  | _ => none

/-- A type in round brackets or a tuple, without the brackets. -/
def enclosedType (g : Grammar) : Parser TypeExpr := do
  if ← atEnd then return .tuple [] false
  if ← peek Peek.lifetime then return .paren (← lifetimeObject g)
  let first ← g (.type true)
  if ← optionalSymbol "," then
    let (others, trailingComma) ← commaSeparated (g (.type true))
    return .tuple (first :: others) (trailingComma || others.isEmpty)
  return .paren first

/-- A type in round brackets, a tuple, or a sum that starts with a bound in brackets. -/
def parenType (g : Grammar) (allowPlus : Bool) : Parser TypeExpr := do
  let relaxed ← peek fun
    | .group .paren content _ _ :: _ => Peek.symbol "?" content
    | _ => false
  if relaxed then return ← relaxedType g
  groupThen .paren (enclosedType g) fun inner => do
    let sum ← peek (Peek.symbol "+")
    match enclosedBound? inner with
    | some bound =>
      if allowPlus && sum then
        let (_, more) ← printing (plusBounds g)
        return .other (TypeExpr.groupToken .paren bound :: more)
      return inner
    | none => return inner

/-- An array or a slice. -/
def bracketType (g : Grammar) : Parser TypeExpr := group .bracket do
  let element ← g (.type true)
  if ← optionalSymbol ";" then return .array element (← printing (g (.expression true))).2
  return .slice element

/-! ## Function pointers -/

/-- One parameter of a function pointer without its attributes; the first one may be a receiver, and
of a mutable receiver only the spelling is kept. -/
def pointerArgument (g : Grammar) (allowSelf : Bool) : Parser Unit := asWrittenUnless do
  let mutableSelf ← peek (Peek.followedBy (Peek.keyword "mut") (Peek.keyword "self"))
  let mutableSelf := allowSelf && mutableSelf
  if mutableSelf then keyword "mut"
  let names := ["_"] ++ if allowSelf then ["self"] else []
  let named ← peek
    (Peek.followedBy (Peek.oneOf [Peek.name, Peek.oneKeyword names]) Peek.colon)
  if named then
    discard anyWord
    symbol ":"
  if mutableSelf && !named then keyword "self" else discard (g (.type true))
  return !mutableSelf

/-- Any number of further arguments, which may have a name. -/
def startsVariadic : Peek :=
  Peek.oneOf [Peek.symbol "...", Peek.allOf [Peek.oneOf [Peek.name, Peek.keyword "_"],
    Peek.second (Peek.symbol ":"), Peek.third (Peek.symbol "...")]]

/-- One parameter of a function pointer and the comma after it; the answer says whether others may
follow. -/
def pointerParameter (g : Grammar) (allowSelf : Bool) : Parser Bool := do
  discard (outerAttributes g)
  if ← peek startsVariadic then
    unless ← optionalSymbol "..." do
      discard anyWord
      symbol ":"
      symbol "..."
    discard (optionalSymbol ",")
    return false
  pointerArgument g allowSelf
  if ← atEnd then return false
  symbol ","
  return true

/-- The language of a function after `extern`, if it is written. -/
def optionalAbi : Parser Unit := do
  if ← optionalKeyword "extern" then
    if ← peek Peek.stringLiteral then discard literal

/-- The parameters of a function pointer. -/
def pointerParameters (g : Grammar) : Parser Unit := do
  unless ← atEnd do
    if ← pointerParameter g true then
      discard <| many do
        if ← atEnd then return none
        return if ← pointerParameter g false then some () else none

/-- A function pointer. -/
def functionPointer (g : Grammar) : Parser Unit := do
  discard (optionalKeyword "unsafe")
  optionalAbi
  keyword "fn"
  discard (groupThen .paren (pointerParameters g) fun _ => resultType g false)

/-! ## All types -/

/-- The type that a parser reads, of which only the tokens are kept. -/
def opaqueType (p : Parser Unit) : Parser TypeExpr := do return .other (← printing p).2

/-- A trait object with its keyword. -/
def traitObject (g : Grammar) (allowPlus : Bool) : Parser Unit := asWrittenUnless do
  let start ← here
  keyword "dyn"
  let star ← optionalSymbol "*"
  objectBounds g .object allowPlus start objectMessage
  return !star

/-- A type that is anonymous but for its bounds. -/
def anonymousType (g : Grammar) (allowPlus : Bool) : Parser Unit := do
  let start ← here
  keyword "impl"
  objectBounds g .anonymous allowPlus start "at least one trait must be specified"

/-- A raw pointer. -/
def pointerType (g : Grammar) : Parser TypeExpr := do
  symbol "*"
  let mutable ← optionalKeyword "mut"
  unless mutable do
    unless ← optionalKeyword "const" do failExpecting (Expectation.keywords ["const", "mut"])
  return .pointer mutable (← g (.type false))

/-- A reference. -/
def referenceType (g : Grammar) : Parser TypeExpr := do
  symbol "&"
  let lifetimeName ← optionalLifetime
  let mutable ← optionalKeyword "mut"
  return .reference lifetimeName mutable (← g (.type false))

/-- What a type may start with. -/
def typeStarts : List Expectation :=
  [.keyword "for", .group .paren, .keyword "fn", .keyword "unsafe", .keyword "extern", .name,
    .symbol "::", .symbol "<", .keyword "dyn", .group .bracket, .symbol "*", .symbol "&",
    .symbol "!", .keyword "impl", .keyword "_", .lifetime]

/-- A path in front of a type. -/
def startsPathType : Peek :=
  Peek.oneOf [Peek.name, Peek.oneKeyword ["super", "self", "Self", "crate"], Peek.symbol "::",
    Peek.symbol "<"]

/-- A type without bound lifetimes. -/
def unboundType (g : Grammar) (allowPlus : Bool) : Parser TypeExpr := do
  if ← peek (Peek.group .paren) then parenType g allowPlus
  else if ← peek (Peek.oneKeyword ["fn", "unsafe", "extern"]) then opaqueType (functionPointer g)
  else if ← peek startsPathType then pathType g allowPlus none
  else if ← peek (Peek.keyword "dyn") then opaqueType (traitObject g allowPlus)
  else if ← peek (Peek.group .bracket) then bracketType g
  else if ← peek (Peek.symbol "*") then pointerType g
  else if ← peek (Peek.symbol "&") then referenceType g
  else if ← peek (Peek.symbol "!") then opaqueType (symbol "!")
  else if ← peek (Peek.keyword "impl") then opaqueType (anonymousType g allowPlus)
  else if ← peek (Peek.keyword "_") then opaqueType (keyword "_")
  else if ← peek Peek.lifetime then lifetimeObject g
  else failExpecting typeStarts

/-- A type with bound lifetimes: a function pointer, or a bound with a path. -/
def boundType (g : Grammar) (allowPlus : Bool) : Parser TypeExpr := do
  let ((), lifetimes) ← tracing (boundLifetimes g)
  if ← peek (Peek.oneKeyword ["fn", "unsafe", "extern"]) then
    leave lifetimes
    let (_, tokens) ← printing (functionPointer g)
    return .other (lifetimes.tokens ++ tokens)
  unless ← peek (Peek.oneOf [Peek.name, Peek.oneKeyword ["super", "self", "Self", "crate"]]) do
    failExpecting (.name :: Expectation.keywords
      ["fn", "unsafe", "extern", "super", "self", "Self", "crate"])
  pathType g allowPlus (some lifetimes)

/-- A type. -/
def typeExpr (g : Grammar) (allowPlus : Bool) : Parser TypeExpr := printedAs TypeExpr.tokens do
  if ← peek (Peek.keyword "for") then boundType g allowPlus else unboundType g allowPlus

end ApiDecl.Syntax.Parser
