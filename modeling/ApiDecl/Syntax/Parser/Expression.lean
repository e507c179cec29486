import ApiDecl.Syntax.Parser.Operator
import ApiDecl.Text.Split

/-!
# Expressions

An expression is a unary expression followed by operators. Its shape is answered as far as
statements, match arms and attributes depend on it. The attributes at the start of the body of a
loop or a match belong to the whole expression; the blocks of a condition take none.
-/

namespace ApiDecl.Syntax.Parser

/-! ## Fields -/

/-- The numbers of fields of fields that a number with a fraction spells. -/
def fieldNumbers (spelling : String) : Except SyntaxError (List Nat) :=
  (Text.splitOn '.' spelling).mapM fun part => do
    return (← runAll fieldNumber (← tokenize part.toList)).1

/-- The fields of fields that a number with a fraction names; the answer says whether the number
ends in a point, behind which another field follows. -/
def fieldChain : Parser Bool := do
  let position ← here
  let (spelling, _) ← tracing literal
  let goesOn := spelling.endsWith "."
  match fieldNumbers (if goesOn then (spelling.dropEnd 1).toString else spelling) with
  | .ok numbers =>
    let point := TypeExpr.markToken '.'
    emit ((numbers.map fieldNumberToken).intersperse point ++ if goesOn then [point] else [])
    return goesOn
  | .error e => throw ⟨position, e.message⟩

/-- Expressions in round brackets, with commas between them: the arguments of a call, the elements
of a tuple, or one expression. -/
def parenExpressions (g : Grammar) : Parser Unit :=
  group .paren (discard (commaSeparated (g (.expression true))))

/-- A field or a call of a method, after the point. -/
def memberAccess (g : Grammar) : Parser Unit := do
  if ← optionalKeyword "await" then return
  unless ← member do return
  if ← optionalSymbol "::" then
    discard (angleArguments g)
    parenExpressions g
  else if ← peek (Peek.group .paren) then parenExpressions g

/-- A call, a field, an index or a question mark after an expression, if there is one. A range takes
neither a field nor a question mark. -/
def trailer (g : Grammar) (isRange : Bool) : Parser (Option Unit) := do
  if ← peek (Peek.group .paren) then
    parenExpressions g
    return some ()
  if !isRange && (← peek Peek.point) then
    symbol "."
    let complete ← if ← peek Peek.fraction then (! ·) <$> fieldChain else pure false
    unless complete do memberAccess g
    return some ()
  if ← peek (Peek.group .bracket) then
    group .bracket (discard (g (.expression true)))
    return some ()
  if !isRange && (← optionalSymbol "?") then return some ()
  return none

/-- Calls, fields, indices and question marks after an expression. -/
def trailers (g : Grammar) (shape : ExprShape) : Parser ExprShape := do
  let steps ← many (trailer g shape.isRange)
  return if steps.isEmpty then shape else .plain

/-! ## Paths -/

/-- One field of a struct literal. -/
def fieldValue (g : Grammar) : Parser Unit := do
  discard (outerAttributes g)
  let named ← member
  let colon ← peek (Peek.symbol ":")
  if colon || !named then
    symbol ":"
    discard (g (.expression true))

/-- The fields of a struct literal, which end at two points and the struct that has the others. -/
def structLiteral (g : Grammar) : Parser Unit := group .brace <| discard <| many do
  if ← atEnd then return none
  if ← optionalSymbol ".." then
    unless ← atEnd do discard (g (.expression true))
    return none
  fieldValue g
  if ← atEnd then return none
  symbol ","
  return some ()

/-- A path, a macro call or a struct literal. -/
def pathExpression (g : Grammar) (allowStruct : Bool) : Parser ExprShape := do
  let plain ← valuePath g
  let calls ← peek (Peek.butNot (Peek.symbol "!") (Peek.symbol "!="))
  if plain && calls then
    symbol "!"
    let (d, _) ← anyGroup
    return if d = .brace then .bracedMacro else .plain
  if allowStruct && (← peek (Peek.group .brace)) then structLiteral g
  return .plain

/-! ## Jumps -/

/-- What an expression may start with, for the operand that `break` and `return` may have. -/
def startsExpression : Peek :=
  Peek.oneOf [Peek.butNot Peek.anyWord (Peek.keyword "as"), Peek.anyGroup, Peek.literal,
    Peek.butNot (Peek.symbol "!") (Peek.symbol "!="),
    Peek.butNot (Peek.symbol "-") (Peek.oneOf [Peek.symbol "-=", Peek.symbol "->"]),
    Peek.butNot (Peek.symbol "*") (Peek.symbol "*="),
    Peek.butNot (Peek.symbol "|") (Peek.symbol "|="),
    Peek.butNot (Peek.symbol "&") (Peek.symbol "&="), Peek.symbol "..",
    Peek.butNot (Peek.symbol "<") (Peek.oneOf [Peek.symbol "<=", Peek.symbol "<<="]),
    Peek.symbol "::", Peek.lifetime, Peek.symbol "#"]

/-- The operand of a jump, if it has one. -/
def jumpOperand (g : Grammar) : Parser Unit := do
  if ← peek startsExpression then discard (g (.expression true))

/-- A jump out of a loop. An operand in braces needs a place where a struct literal may stand, and
one with a label needs round brackets. -/
def breakExpression (g : Grammar) (allowStruct : Bool) : Parser Unit := do
  keyword "break"
  let start ← here
  if ← peek (Peek.followedBy Peek.lifetime (Peek.symbol ":")) then
    discard (g (.expression true))
    throw ⟨start, "parentheses required"⟩
  discard optionalLifetime
  let brace ← peek (Peek.group .brace)
  if allowStruct || !brace then jumpOperand g

/-! ## Closures -/

/-- One parameter of a closure. Attributes before a pattern of which only the spelling is known are
lost, unless the parameter has a type. -/
def closureParameter (g : Grammar) : Parser Unit := do
  let (_, attributes) ← tracing (outerAttributes g)
  let (shape, t) ← tracing (g .pattern)
  let typed ← peek (Peek.symbol ":")
  if typed || shape != .spelled then leave attributes
  leave t
  if typed then
    symbol ":"
    discard (g (.type true))

/-- A closure. -/
def closure (g : Grammar) (allowStruct : Bool) : Parser Unit := do
  discard (optionalBoundLifetimes g)
  discard (optionalKeyword "const")
  discard (optionalKeyword "static")
  discard (optionalKeyword "async")
  discard (optionalKeyword "move")
  symbol "|"
  discard (separatedUntil (Peek.symbol "|") "," (closureParameter g))
  symbol "|"
  if (← resultType g true).isSome then block g else discard (g (.expression allowStruct))

/-- The start of a closure. -/
def startsClosure : Peek :=
  Peek.oneOf [Peek.symbol "|", Peek.oneKeyword ["move", "static"],
    Peek.followedBy (Peek.keyword "for") Peek.genericParameters,
    Peek.butNot (Peek.keyword "const") (Peek.second (Peek.group .brace)),
    Peek.followedBy (Peek.keyword "async") (Peek.oneOf [Peek.symbol "|", Peek.keyword "move"])]

/-! ## Control flow -/

/-- A condition with its blocks. -/
def conditional (g : Grammar) : Parser Unit := discard <| many do
  unless ← optionalKeyword "if" do return none
  discard (g (.expression false))
  block g
  unless ← optionalKeyword "else" do return none
  if ← peek (Peek.keyword "if") then return some ()
  unless ← peek (Peek.group .brace) do failExpecting [.keyword "if", .group .brace]
  block g
  return none

/-- A loop from its keyword on. -/
def loopExpression (g : Grammar) : Parser Unit :=
  headWithBody g
    (do
      if ← optionalKeyword "while" then discard (g (.expression false))
      else if ← optionalKeyword "for" then
        discard (alternativePattern g)
        keyword "in"
        discard (g (.expression false))
      else keyword "loop")
    (g .statements)

/-- A loop or block after its label. -/
def labeledExpression (g : Grammar) : Parser Unit := do
  discard lifetime
  symbol ":"
  if ← peek (Peek.oneKeyword ["while", "for", "loop"]) then loopExpression g
  else if ← peek (Peek.group .brace) then discard (body g)
  else fail "expected loop or block expression"

/-- Attributes and the expression that they apply to. A range that has attributes is printed in
round brackets, and attributes of an expression of which only the spelling is known are lost. -/
def leaveAttributed (attributes : Trace) (shape : ExprShape) (t : Trace) : Parser Unit :=
  if shape.isRange && !attributes.tokens.isEmpty then do
    leave attributes
    leave ⟨[TypeExpr.groupToken .paren t.tokens], t.items⟩
  else do
    unless shape = .spelled do leave attributes
    leave t

/-- The body of a match arm, whose attributes apply to the first operand. -/
def armBody (g : Grammar) : Parser ExprShape := do
  let (_, attributes) ← tracing (outerAttributes g)
  let (leading, t) ← tracing (g .leadingExpression)
  leaveAttributed attributes leading.first t
  return leading.shape

/-- An arm of a match. Only an arm that ends in a block, or the last one, needs no comma. -/
def matchArm (g : Grammar) : Parser Unit := do
  discard (outerAttributes g)
  discard (alternativePattern g)
  if ← optionalKeyword "if" then discard (g (.expression true))
  symbol "=>"
  let shape ← armBody g
  let last ← atEnd
  if shape = .block || last then discard (optionalSymbol ",") else symbol ","

/-- A match with its arms. -/
def matchExpression (g : Grammar) : Parser Unit :=
  headWithBody g
    (do
      keyword "match"
      discard (g (.expression false)))
    (discard (manyToEnd (matchArm g)))

/-! ## Atoms -/

/-- An array, written out or as a repetition. -/
def arrayExpression (g : Grammar) : Parser Unit := group .bracket do
  unless ← atEnd do
    discard (g (.expression true))
    if ← optionalSymbol ";" then discard (g (.expression true))
    else unless ← atEnd do
      unless ← peek (Peek.symbol ",") do fail "expected `,` or `;`"
      symbol ","
      discard (commaSeparated (g (.expression true)))

/-- A binding as a condition. -/
def letExpression (g : Grammar) (allowStruct : Bool) : Parser Unit := do
  keyword "let"
  discard (alternativePattern g)
  symbol "="
  let right ← g (.unary allowStruct)
  discard (operators g right allowStruct Precedence.compare)

/-- A call of what the language itself provides. -/
def builtinExpression : Parser Unit := asWritten do
  keyword "builtin"
  symbol "#"
  discard name
  wholeGroup .paren

/-- A call that takes the place of the caller. -/
def becomeExpression (g : Grammar) : Parser Unit := asWritten do
  keyword "become"
  discard (g (.expression true))

/-- An asynchronous block. -/
def asyncBlock (g : Grammar) : Parser Unit := do
  keyword "async"
  discard (optionalKeyword "move")
  block g

/-- The start of an asynchronous block. -/
def startsAsyncBlock : Peek := Peek.allOf [Peek.keyword "async",
  Peek.oneOf [Peek.second (Peek.group .brace),
    Peek.allOf [Peek.second (Peek.keyword "move"), Peek.third (Peek.group .brace)]]]

/-- The start of a block whose failure is caught. -/
def startsTryBlock : Peek := Peek.followedBy (Peek.keyword "try") (Peek.group .brace)

/-- The start of a path in an expression. -/
def startsValuePath : Peek :=
  Peek.oneOf [Peek.itemPath, Peek.symbol "<", Peek.keyword "Self",
    Peek.followedBy (Peek.keyword "try") (Peek.oneOf [Peek.symbol "!", Peek.symbol "::"])]

/-- The shape of a literal, by its spelling. -/
def literalShape (spelling : String) : ExprShape :=
  match StringLiteral.value? spelling with
  | some value => .text value
  | none => .plain

/-- An expression without operators and trailers. -/
def atom (g : Grammar) (allowStruct : Bool) : Parser ExprShape := do
  let shaped (shape : ExprShape) (p : Parser Unit) : Parser ExprShape := do p; return shape
  if ← peek Peek.literal then return literalShape (← literal)
  else if ← peek startsAsyncBlock then shaped .plain (asyncBlock g)
  else if ← peek startsTryBlock then shaped .block (do keyword "try"; block g)
  else if ← peek startsClosure then shaped .plain (closure g allowStruct)
  else if ← peek (Peek.followedBy (Peek.keyword "builtin") (Peek.symbol "#")) then
    shaped .spelled builtinExpression
  else if ← peek startsValuePath then pathExpression g allowStruct
  else if ← peek (Peek.group .paren) then shaped .plain (parenExpressions g)
  else if ← peek (Peek.keyword "break") then shaped .plain (breakExpression g allowStruct)
  else if ← peek (Peek.keyword "continue") then
    shaped .plain (do keyword "continue"; discard optionalLifetime)
  else if ← peek (Peek.oneKeyword ["return", "yield"]) then
    shaped .plain (do discard anyWord; jumpOperand g)
  else if ← peek (Peek.keyword "become") then shaped .spelled (becomeExpression g)
  else if ← peek (Peek.group .bracket) then shaped .plain (arrayExpression g)
  else if ← peek (Peek.keyword "let") then shaped .plain (letExpression g allowStruct)
  else if ← peek (Peek.keyword "if") then shaped .block (conditional g)
  else if ← peek (Peek.oneKeyword ["while", "for", "loop"]) then shaped .block (loopExpression g)
  else if ← peek (Peek.keyword "match") then shaped .block (matchExpression g)
  else if ← peek (Peek.oneKeyword ["unsafe", "const"]) then
    shaped .block (do discard anyWord; discard (body g))
  else if ← peek (Peek.group .brace) then shaped .block (discard (body g))
  else if ← peek (Peek.symbol "..") then
    let operator ← here
    shaped (.range operator) (rangeRest g allowStruct)
  else if ← peek (Peek.keyword "_") then shaped .plain (keyword "_")
  else if ← peek Peek.lifetime then shaped .block (labeledExpression g)
  else fail "expected an expression"

/-! ## Unary expressions -/

/-- A reference, or the address of a place. -/
def referenceExpression (g : Grammar) (allowStruct : Bool) : Parser Unit := do
  symbol "&"
  let raw ← peek
    (Peek.followedBy (Peek.keyword "raw") (Peek.oneKeyword ["mut", "const"]))
  if raw then discard anyWord
  let mutable ← optionalKeyword "mut"
  if raw && !mutable then keyword "const"
  discard (g (.unary allowStruct))

/-- An atom with its trailers, after attributes that were read since `start`. -/
def attributedAtom (g : Grammar) (allowStruct : Bool) (start : List Token)
    (attributes : List Attribute) (attributeTrace : Trace) : Parser ExprShape := do
  let (shape, t) ← tracing do trailers g (← atom g allowStruct)
  match shape with
  | .spelled => emit (← sourceSince start)
  | .range operator =>
    unless attributes.isEmpty do
      throw ⟨operator, "attributes are not allowed on range expressions starting with `..`"⟩
    leave t
  | _ => leave (attributeTrace.append t)
  return shape

/-- An expression without binary operators. -/
def unary (g : Grammar) (allowStruct : Bool) : Parser ExprShape := do
  let start := (← get).tokens
  let (attributes, t) ← tracing (outerAttributes g)
  let operator? ← ["*", "!", "-"].findM? fun operator => peek (Peek.symbol operator)
  if ← peek (Peek.symbol "&") then
    leave t
    referenceExpression g allowStruct
    return .plain
  else if let some operator := operator? then
    leave t
    symbol operator
    discard (g (.unary allowStruct))
    return .plain
  else attributedAtom g allowStruct start attributes t

/-- What an expression starts with that ends in its own block. -/
def startsBlock : Peek :=
  Peek.oneOf [Peek.oneKeyword ["if", "while", "loop", "match", "unsafe"],
    Peek.butNot (Peek.keyword "for") (Peek.second Peek.genericParameters),
    Peek.followedBy (Peek.oneKeyword ["try", "const"]) (Peek.group .brace),
    Peek.group .brace, Peek.lifetime]

/-- An expression in statement position: one that ends in a block is not the operand of an operator
after it, unless that is a field or a question mark. -/
def leadingExpression (g : Grammar) : Parser LeadingShape := do
  if ← peek startsBlock then
    let shape ← atom g true
    unless ← peek (Peek.oneOf [Peek.point, Peek.symbol "?"]) do return ⟨shape, shape⟩
    let first ← trailers g shape
    return ⟨← operators g first true Precedence.lowest, first⟩
  let first ← g (.unary true)
  return ⟨← operators g first true Precedence.lowest, first⟩

end ApiDecl.Syntax.Parser
