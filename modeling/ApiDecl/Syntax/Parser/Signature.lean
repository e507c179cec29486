import ApiDecl.Syntax.Parser.Expression

/-!
# Signatures of functions

A signature is what stands in front of the body of a function. Its receiver, a parameter named
`self`, comes first if there is one. Its conditions count as met before its parameters, since they
belong to the generic parameters.
-/

namespace ApiDecl.Syntax.Parser

/-- The markers of a function up to its keyword; the answer says whether it is marked safe. -/
def functionMarkers (allowSafe : Bool) : Parser Bool := do
  discard (optionalKeyword "const")
  discard (optionalKeyword "async")
  let isUnsafe ← optionalKeyword "unsafe"
  let isSafe ← if allowSafe && !isUnsafe then optionalKeyword "safe" else pure false
  optionalAbi
  keyword "fn"
  return isSafe

/-- Whether a function signature comes next. -/
def startsSignature (allowSafe : Bool) : Parser Bool := wouldSucceed (functionMarkers allowSafe)

/-- A receiver parameter; the answer is where its name is. -/
def receiver (g : Grammar) : Parser Position := do
  let byReference ← optionalSymbol "&"
  if byReference then discard optionalLifetime
  discard (optionalKeyword "mut")
  let position ← here
  keyword "self"
  unless byReference do
    if ← optionalSymbol ":" then discard (g (.type true))
  return position

/-- A parameter of a function. -/
inductive Parameter where
  /-- The receiver, with the place of its name. -/
  | receiver (position : Position)
  /-- A parameter with its type. -/
  | typed (type : TypeExpr)
  /-- Any number of further arguments. -/
  | variadic

/-- Whether a parameter is a receiver. -/
def Parameter.isReceiver : Parameter → Bool
  | receiver _ => true
  | typed _ | variadic => false

/-- The type of a parameter that is no receiver. -/
def Parameter.type? : Parameter → Option TypeExpr
  | typed t => some t
  | receiver _ | variadic => none

/-- One parameter without its attributes. A type alone, as the oldest editions allow it, is a
parameter without a name. -/
def parameter (g : Grammar) : Parser Parameter := do
  if ← optionalSymbol "..." then return .variadic
  if ← peek Peek.receiver then return .receiver (← receiver g)
  if ← peek (Peek.followedBy Peek.name (Peek.symbol "<")) then
    emit [.word "_" default, .mark ':' false default]
    return .typed (← g (.type true))
  discard (g .pattern)
  symbol ":"
  if ← optionalSymbol "..." then return .variadic
  return .typed (← g (.type true))

/-- Refuses a receiver that does not come first. -/
def checkReceiver (before : List Parameter) : Parameter → Parser Unit
  | .receiver position => do
    if before.any (·.isReceiver) then throw ⟨position, "unexpected second method receiver"⟩
    unless before.isEmpty do throw ⟨position, "unexpected method receiver"⟩
  | _ => return

/-- The parameters of a function after some others, up to the end of their group. Nothing follows
one that stands for any number of arguments. The fuel bounds their number. -/
def parametersAfter (g : Grammar) (before : List Parameter) : Nat → Parser (List Parameter)
  | 0 => return before.reverse
  | fuel + 1 => do
    if ← atEnd then return before.reverse
    discard (outerAttributes g)
    let p ← parameter g
    checkReceiver before p
    unless ← atEnd do symbol ","
    match p with
    | .variadic => return (p :: before).reverse
    | _ => parametersAfter g (p :: before) fuel

/-- A signature that has been read. -/
structure Signature where
  /-- The name of the function. -/
  name : String
  /-- The types of the parameters, the receiver apart. -/
  parameters : List TypeExpr
  /-- The declared result type. -/
  result : Option TypeExpr
  /-- Whether the function is marked safe. -/
  isSafe : Bool

/-- The signature of a function. -/
def signature (g : Grammar) (allowSafe : Bool) : Parser Signature := do
  let isSafe ← functionMarkers allowSafe
  let functionName ← name
  discard (genericParameters g)
  let ((parameters, result), _) ← secondMetFirst
    (groupThen .paren (do parametersAfter g [] ((← get).tokens.length + 1)) fun all => do
      return (all.filterMap Parameter.type?, ← resultType g true))
    (whereClause g)
  return ⟨functionName, parameters, result, isSafe⟩

end ApiDecl.Syntax.Parser
