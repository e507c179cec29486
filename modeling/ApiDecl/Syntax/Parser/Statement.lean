import ApiDecl.Syntax.Parser.Item

/-!
# Statements

Statements make up a block, and may be items.
-/

namespace ApiDecl.Syntax.Parser

/-- Whether a statement is an item, by its first tokens. -/
def startsItem : Peek :=
  Peek.oneOf [Peek.oneKeyword ["pub", "extern", "use", "fn", "mod", "type", "struct", "enum",
      "trait", "impl", "macro"],
    Peek.butNot (Peek.keyword "crate") (Peek.second (Peek.symbol "::")),
    Peek.followedBy (Peek.keyword "static") (Peek.oneOf [Peek.keyword "mut", Peek.name]),
    Peek.butNot (Peek.keyword "const") (Peek.oneOf [Peek.second (Peek.oneOf [Peek.group .brace,
        Peek.oneKeyword ["static", "move"], Peek.symbol "|"]),
      Peek.butNot (Peek.second (Peek.keyword "async"))
        (Peek.third (Peek.oneKeyword ["unsafe", "extern", "fn"]))]),
    Peek.butNot (Peek.keyword "unsafe") (Peek.second (Peek.group .brace)),
    Peek.followedBy (Peek.keyword "async") (Peek.oneKeyword ["unsafe", "extern", "fn"]),
    Peek.followedBy (Peek.keyword "union") Peek.name,
    startsAutoTrait,
    Peek.followedBy (Peek.keyword "default") (Peek.oneKeyword ["unsafe", "impl"])]

/-- A macro call that is a whole statement. -/
inductive MacroStatement where
  /-- It defines something and is an item. -/
  | item
  /-- It has braces and nothing that continues it. -/
  | braced
  deriving DecidableEq

/-- Whether a statement is a macro call of its own, by the tokens after its path. -/
def macroStatement? : Parser (Option MacroStatement) := do
  let before ← get
  let plain ← attempt modulePath
  let tokens := (← get).tokens
  set before
  if plain.isNone || !Peek.symbol "!" tokens then return none
  if Peek.second (Peek.oneOf [Peek.name, Peek.keyword "try"]) tokens then return some .item
  let continues := Peek.oneOf [Peek.point, Peek.symbol "?"]
  if Peek.second (Peek.group .brace) tokens && !Peek.third continues tokens then
    return some .braced
  return none

/-- A macro call with braces as a statement. -/
def macroStatement : Parser Unit := do
  discard modulePath
  symbol "!"
  discard anyGroup
  discard (optionalSymbol ";")

/-- Whether tokens end in a group in braces. -/
def endsInBrace (tokens : List Token) : Bool := tokens.getLast?.any fun t => Peek.group .brace [t]

/-- A binding statement. A value that ends in braces takes no block for the case that the pattern
does not match. -/
def binding (g : Grammar) : Parser Unit := do
  keyword "let"
  discard (g .pattern)
  if ← optionalSymbol ":" then discard (g (.type true))
  if ← optionalSymbol "=" then
    let (_, value) ← printing (g (.expression true))
    unless endsInBrace value do
      if ← optionalKeyword "else" then block g
  symbol ";"

/-- Whether an expression needs a semicolon to be a statement that others follow. -/
def needsSemicolon : ExprShape → Bool
  | .block | .bracedMacro => false
  | _ => true

/-- An expression as a statement. Its attributes apply to a range as a whole, and to the first
operand of any other expression. -/
def expressionStatement (g : Grammar) (attributes : Trace) : Parser Unit := do
  let (leading, t) ← tracing (g .leadingExpression)
  leaveAttributed attributes (if leading.shape.isRange then leading.shape else leading.first) t
  unless ← optionalSymbol ";" do
    let last ← atEnd
    if needsSemicolon leading.shape && !last then fail "unexpected token, expected `;`"

/-- One statement, or a semicolon alone. -/
def statement (g : Grammar) : Parser Unit := do
  if ← optionalSymbol ";" then return
  let start := (← get).tokens
  let (attributes, t) ← tracing (outerAttributes g)
  let call? ← macroStatement?
  if call? = some .braced then
    leave t
    macroStatement
  else if ← peek (Peek.keyword "let") then
    leave t
    binding g
  else if call? = some .item || (← peek startsItem) then restOfItem g start attributes t
  else expressionStatement g t

/-- Statements up to the end of their group. -/
def statements (g : Grammar) : Parser Unit := discard (manyToEnd (statement g))

end ApiDecl.Syntax.Parser
