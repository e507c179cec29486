import ApiDecl.Syntax.Parser.Attribute

/-!
# Paths, bounds and generic parameters

Paths with arguments in angle brackets, the bounds that follow a colon or a `dyn`, and lists of
generic parameters with their conditions. In a list of parameters or arguments the lifetimes are
printed first, and a part that may be left out is not printed if nothing is in it.
-/

namespace ApiDecl.Syntax.Parser

/-! ## Arguments -/

/-- A constant as a generic argument: a literal, a name or a block. -/
def constantArgument (g : Grammar) : Parser Unit := do
  if ← peek Peek.literal then discard literal
  else if ← peek Peek.name then discard name
  else if ← peek (Peek.group .brace) then discard (body g)
  else failExpecting []

/-- Whether a type is a path with a single segment, whatever its arguments. -/
def isSingleSegment : TypeExpr → Bool
  | .path false [_] => true
  | _ => false

/-- A result type after an arrow, if there is one. -/
def resultType (g : Grammar) (allowPlus : Bool) : Parser (Option TypeExpr) := do
  if ← optionalSymbol "->" then return some (← g (.type allowPlus)) else return none

/-- One argument in angle brackets. -/
def genericArgument (g : Grammar) : Parser GenericArgument := do
  if ← peek (Peek.butNot Peek.lifetime (Peek.second (Peek.symbol "+"))) then
    return .lifetime (← lifetime)
  let startsConstant := Peek.oneOf [Peek.literal, Peek.group .brace]
  if ← peek startsConstant then return .other (← printing (constantArgument g)).2
  let (argument, tokens) ← printing (g (.type true))
  if isSingleSegment argument then
    if ← peek (Peek.symbol "=") then
      let (_, more) ← printing do
        symbol "="
        if ← peek startsConstant then constantArgument g else discard (g (.type true))
      return .other (tokens ++ more)
    if ← peek (Peek.symbol ":") then
      let (_, more) ← printing do
        symbol ":"
        chainUntil (Peek.oneOf [Peek.symbol ",", Peek.symbol ">"]) "+" (g (.bound .parameter))
      return .other (tokens ++ more)
  return .type argument

/-- Arguments in angle brackets, and whether a comma follows the last one. -/
def angleArguments (g : Grammar) : Parser (List GenericArgument × Bool) :=
  printedAs (fun (arguments, trailingComma) => TypeExpr.angleTokens arguments trailingComma) do
    symbol "<"
    let arguments ← separatedUntil (Peek.symbol ">") "," (genericArgument g)
    symbol ">"
    return arguments

/-! ## Paths -/

/-- One segment of a path; in an expression its arguments need `::` in front of them. -/
def pathSegment (g : Grammar) (inExpression : Bool) : Parser PathSegment := do
  if ← peek (Peek.oneKeyword ["super", "self", "crate", "try"]) then return .plain (← anyWord)
  let word ← nameOr ["Self"]
  let direct ← peek
    (Peek.butNot (Peek.symbol "<") (Peek.oneOf [Peek.symbol "<=", Peek.symbol "<<="]))
  let turbofish ← peek (Peek.allOf [Peek.symbol "::", Peek.third (Peek.symbol "<")])
  if turbofish then symbol "::"
  if turbofish || (direct && !inExpression) then
    let (arguments, trailingComma) ← angleArguments g
    return .generic word turbofish arguments trailingComma
  return .plain word

/-- The segments of a path after the first one. A `::` before round brackets is not part of it. -/
def moreSegments (g : Grammar) (inExpression : Bool) : Parser (List PathSegment) :=
  manyWhile (Peek.butNot (Peek.symbol "::") (Peek.third (Peek.group .paren))) do
    symbol "::"
    pathSegment g inExpression

/-- A path that is not below another type. -/
def path (g : Grammar) (inExpression : Bool) : Parser (Bool × List PathSegment) := do
  let absolute ← optionalSymbol "::"
  let first ← pathSegment g inExpression
  return (absolute, first :: (← moreSegments g inExpression))

/-- Whether all segments of a path are without arguments. -/
def isModulePath (segments : List PathSegment) : Bool :=
  segments.all fun
    | .plain _ => true
    | .generic .. => false

/-! ## Generic parameters -/

/-- Elements between commas of which the lifetimes are printed first. An element says whether it is
a lifetime, or that the list has ended; what stands for a comma says whether the list goes on. -/
def lifetimesFirst (element : Parser (Option Bool)) (comma : Parser Bool) :
    Parser (List TypeExpr.PrintedArgument) :=
  printedAs TypeExpr.orderedArguments <| many do
    let (isLifetime?, t) ← tracing element
    leave t.unprinted
    match isLifetime? with
    | none => return none
    | some isLifetime => return some ⟨isLifetime, t.tokens, ← comma⟩

/-- The bounds after a colon, if there are any, up to the place where a test succeeds. -/
def bounds (g : Grammar) (stop : Peek) : Parser Unit := discard <| unlessEmpty do
  unless ← optionalSymbol ":" do return []
  chainUntil stop "+" (g (.bound .parameter))

/-- A lifetime among generic parameters. -/
def lifetimeParameter : Parser Unit := do
  discard lifetime
  discard <| unlessEmpty do
    unless ← optionalSymbol ":" do return []
    chainUntil (Peek.oneOf [Peek.atEnd, Peek.symbol ",", Peek.symbol ">"]) "+" lifetime

/-- A type among generic parameters. -/
def typeParameter (g : Grammar) : Parser Unit := do
  discard name
  bounds g (Peek.oneOf [Peek.atEnd, Peek.symbol ",", Peek.symbol ">", Peek.symbol "="])
  if ← optionalSymbol "=" then discard (g (.type true))

/-- A constant among generic parameters. -/
def constantParameter (g : Grammar) : Parser Unit := do
  keyword "const"
  discard name
  symbol ":"
  discard (g (.type true))
  if ← optionalSymbol "=" then constantArgument g

/-- A generic parameter, where one of some things has to stand; the answer says whether it is a
lifetime. -/
def genericParameter (g : Grammar) (expected : List Expectation) : Parser Bool := do
  if ← peek Peek.lifetime then
    lifetimeParameter
    return true
  if ← peek Peek.name then typeParameter g
  else if ← peek (Peek.keyword "const") then constantParameter g
  else failExpecting expected
  return false

/-- Lifetimes, types and constants in angle brackets after `for`. -/
def boundLifetimes (g : Grammar) : Parser Unit := do
  keyword "for"
  symbol "<"
  discard <| separatedUntil (Peek.symbol ">") "," do
    discard (outerAttributes g)
    genericParameter g [.name, .lifetime, .keyword "const"]
  symbol ">"

/-- Parameters in angle brackets after `for`, if there are any; the answer says whether there
are. -/
def optionalBoundLifetimes (g : Grammar) : Parser Bool := do
  unless ← peek (Peek.keyword "for") do return false
  boundLifetimes g
  return true

/-- Generic parameters in angle brackets, if there are any; the answer says whether there are angle
brackets. -/
def genericParameters (g : Grammar) : Parser Bool := do
  unless ← peek (Peek.symbol "<") do return false
  discard <| unlessEmpty do
    symbol "<"
    let closes : Parser Bool := peek (Peek.symbol ">")
    let parameters ← lifetimesFirst
      (do
        if ← closes then return none
        discard (outerAttributes g)
        if ← peek (Peek.keyword "_") then
          discard anyWord
          return some false
        return some (← genericParameter g [.lifetime, .name, .keyword "const"]))
      (do
        if ← closes then return false
        symbol ","
        return true)
    symbol ">"
    return parameters
  return true

/-! ## Bounds -/

/-- A path in a bound, which may have the parameters and the result of a function as its
arguments. -/
def boundPath (g : Grammar) : Parser Unit := do
  let ((absolute, segments), t) ← tracing (path g false)
  let called ← peek (Peek.oneOf [Peek.group .paren,
    Peek.allOf [Peek.symbol "::", Peek.third (Peek.group .paren)]])
  match segments.getLast? with
  | some last =>
    if last.arguments.isEmpty && called then
      leave t.unprinted
      emit (TypeExpr.path absolute (segments.dropLast ++ [.plain last.name])).tokens
      discard (unprinted (optionalSymbol "::"))
      discard (group .paren (commaSeparated (g (.type true))))
      discard (resultType g false)
    else leave t
  | none => leave t

/-- A bound that names a trait; the answer says whether more than its spelling is known, which is
not so if it is marked constant. -/
def traitBound (g : Grammar) (place : BoundPlace) : Parser Bool := do
  let bound ← optionalBoundLifetimes g
  let start ← here
  let conditional ← peek (Peek.group .bracket)
  let constant ← peek (Peek.keyword "const")
  if conditional then
    group .bracket (keyword "const")
    unless place.allowConst do throw ⟨start, "`[const]` is not allowed here"⟩
  else if constant then
    keyword "const"
    unless place.allowConst do throw ⟨start, "`const` is not allowed here"⟩
  let mark ← here
  let relaxed ← optionalSymbol "?"
  let bound ← if relaxed && !bound then optionalBoundLifetimes g else pure bound
  boundPath g
  if bound && relaxed then
    throw ⟨mark, "`for<...>` binder not allowed with `?` trait polarity modifier"⟩
  return !conditional && !constant

/-- The parameters that an anonymous type captures, in angle brackets after `use`. -/
def capturedParameters : Parser Unit := do
  keyword "use"
  symbol "<"
  discard <| lifetimesFirst
    (do
      if ← peek (Peek.symbol ">") then return none
      if ← peek Peek.lifetime then
        discard lifetime
        return some true
      if ← peek (Peek.oneOf [Peek.name, Peek.keyword "Self"]) then
        discard anyWord
        return some false
      failExpecting [.lifetime, .name, .symbol ">"])
    (do
      if ← optionalSymbol "," then return true
      unless ← peek (Peek.symbol ">") do failExpecting [.symbol ",", .symbol ">"]
      return false)
  symbol ">"

/-- One bound. -/
def bound (g : Grammar) (place : BoundPlace) : Parser BoundKind := do
  if ← peek Peek.lifetime then
    discard lifetime
    return .lifetime
  if ← peek (Peek.keyword "use") then
    let start ← here
    capturedParameters
    unless place.allowCapture do
      throw ⟨start, "`use<...>` precise capturing syntax is not allowed here"⟩
    return .capture
  asWrittenUnless do
    if ← peek (Peek.group .paren) then group .paren (traitBound g place) else traitBound g place
  return .trait

/-- What a further bound may start with after a plus sign. -/
def continuesSum (allowConst : Bool) : Peek :=
  Peek.oneOf ([Peek.anyWord, Peek.symbol "::", Peek.symbol "?", Peek.lifetime, Peek.group .paren] ++
    if allowConst then [Peek.group .bracket] else [])

/-- The bounds after the first one of a sum, which may end in a plus sign; the answer says whether
there is a plus sign. -/
def furtherBounds (g : Grammar) (place : BoundPlace) : Parser (Bool × List BoundKind) := do
  let sum ← peek (Peek.symbol "+")
  let kinds ← many do
    unless ← optionalSymbol "+" do return none
    unless ← peek (continuesSum place.allowConst) do return none
    return some (← g (.bound place))
  return (sum, kinds)

/-- The bounds of a trait object or an anonymous type, one of which has to be a trait; a message
about that is placed at `start`. -/
def objectBounds (g : Grammar) (place : BoundPlace) (allowPlus : Bool) (start : Position)
    (message : String) : Parser Unit := do
  let first ← g (.bound place)
  let others ← if allowPlus then (·.2) <$> furtherBounds g place else pure []
  unless (first :: others).contains .trait do throw ⟨start, message⟩

/-! ## Conditions -/

/-- What a condition on generic parameters cannot start with. -/
def endsConditions : Peek :=
  Peek.oneOf [Peek.atEnd, Peek.group .brace, Peek.symbol ",", Peek.symbol ";", Peek.colon,
    Peek.symbol "="]

/-- One condition on generic parameters. -/
def condition (g : Grammar) : Parser Unit := do
  if ← peek (Peek.followedBy Peek.lifetime (Peek.symbol ":")) then
    discard lifetime
    symbol ":"
    discard (chainUntil (Peek.oneOf [endsConditions, Peek.symbol ":"]) "+" lifetime)
  else
    discard (optionalBoundLifetimes g)
    discard (g (.type true))
    symbol ":"
    discard (chainUntil endsConditions "+" (g (.bound .parameter)))

/-- Conditions on generic parameters after `where`, if there are any; the answer says whether there
is a `where`. -/
def whereClause (g : Grammar) : Parser Bool := do
  unless ← peek (Peek.keyword "where") do return false
  discard <| unlessEmpty do
    keyword "where"
    if ← peek Peek.genericParameters then
      fail "generic parameters on `where` clauses are reserved for future use"
    chainUntil endsConditions "," (condition g)
  return true

end ApiDecl.Syntax.Parser
