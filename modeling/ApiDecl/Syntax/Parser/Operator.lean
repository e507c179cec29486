import ApiDecl.Syntax.Parser.Pattern

/-!
# Operators

Operators are read by precedence: an operator takes the operands that bind more tightly than it
does, and operators of one precedence are read from left to right.
-/

namespace ApiDecl.Syntax.Parser

/-- The binary operators with their precedence; a longer operator comes before its beginnings. -/
def binaryOperators : List (String × Precedence) :=
  [("+=", Precedence.assign), ("-=", Precedence.assign), ("*=", Precedence.assign),
    ("/=", Precedence.assign), ("%=", Precedence.assign), ("^=", Precedence.assign),
    ("&=", Precedence.assign), ("|=", Precedence.assign), ("<<=", Precedence.assign),
    (">>=", Precedence.assign), ("&&", 4), ("||", 3), ("<<", 10), (">>", 10),
    ("==", Precedence.compare), ("<=", Precedence.compare), ("!=", Precedence.compare),
    (">=", Precedence.compare), ("+", 11), ("-", 11), ("*", 12), ("/", 12), ("%", 12), ("^", 8),
    ("&", 9), ("|", 7), ("<", Precedence.compare), (">", Precedence.compare)]

/-- The binary operator that comes next. -/
def binaryOperator? (tokens : List Token) : Option (String × Precedence) :=
  binaryOperators.find? fun (operator, _) => Peek.symbol operator tokens

/-- An equals sign that is not part of an arrow. -/
def assignSign : Peek := Peek.butNot (Peek.symbol "=") (Peek.symbol "=>")

/-- How tightly what comes next binds, if it is an operator. -/
def nextPrecedence (tokens : List Token) : Precedence :=
  match binaryOperator? tokens with
  | some (_, precedence) => precedence
  | none =>
    if assignSign tokens then Precedence.assign
    else if Peek.symbol ".." tokens then Precedence.range
    else if Peek.keyword "as" tokens then Precedence.cast
    else Precedence.lowest

/-- The right operand of an operator, with all operators that bind more tightly. -/
def rightOperand (g : Grammar) (allowStruct : Bool) (precedence : Precedence) :
    Parser ExprShape := do
  let rec tighten (right : ExprShape) : Nat → Parser ExprShape
    | 0 => return right
    | fuel + 1 => do
      let tokens := (← get).tokens
      let next := nextPrecedence tokens
      if next > precedence || next == precedence && precedence == Precedence.assign then
        let more ← g (.operators right allowStruct next)
        if (← get).tokens.length == tokens.length then return more
        tighten more fuel
      else return right
  let first ← g (.unary allowStruct)
  tighten first ((← get).tokens.length + 1)

/-- What an open range is followed by. -/
def endsRange (allowStruct : Bool) : Peek := fun tokens =>
  Peek.oneOf [Peek.atEnd, Peek.symbol ",", Peek.symbol ";", Peek.point, Peek.symbol "?",
    Peek.symbol "=>", Peek.symbol "=", Peek.keyword "as"] tokens ||
  !allowStruct && Peek.group .brace tokens ||
  (binaryOperator? tokens).any fun (operator, _) =>
    !(["&&", "||", "&", "|", "-", "*", "<", "<<"].contains operator)

/-- A range operator and its upper end, if it has one. -/
def rangeRest (g : Grammar) (allowStruct : Bool) : Parser Unit := do
  let closed ← optionalSymbol "..="
  unless closed do
    if ← peek (Peek.symbol "...") then failExpecting [.symbol "..", .symbol "..="]
    symbol ".."
  let ends ← peek (endsRange allowStruct)
  if closed || !ends then discard (rightOperand g allowStruct Precedence.range)

/-- What may not follow a conversion directly. -/
def refuseAfterCast : Parser Unit := do
  let tokens := (← get).tokens
  if Peek.point tokens then
    if Peek.second (Peek.keyword "await") tokens then
      fail "casts cannot be followed by `.await`"
    let called := Peek.oneOf [Peek.group .paren, Peek.symbol "::"]
    if Peek.second Peek.name tokens && Peek.third called tokens then
      fail "casts cannot be followed by a method call"
    fail "casts cannot be followed by a field access"
  if Peek.symbol "?" tokens then fail "casts cannot be followed by `?`"
  if Peek.group .bracket tokens then fail "casts cannot be followed by indexing"
  if Peek.group .paren tokens then fail "casts cannot be followed by a function call"

/-- The operators after a left operand that bind at least as tightly as `base`. -/
def operators (g : Grammar) (left : ExprShape) (allowStruct : Bool) (base : Precedence) :
    Parser ExprShape := do
  let rec go (left : ExprShape) : Nat → Parser ExprShape
    | 0 => return left
    | fuel + 1 => do
      let tokens := (← get).tokens
      if left.isRange then return left
      match binaryOperator? tokens with
      | some (operator, precedence) =>
        if precedence < base then return left
        if precedence == Precedence.compare && left matches .comparison then
          fail "comparison operators cannot be chained"
        symbol operator
        discard (rightOperand g allowStruct precedence)
        go (if precedence == Precedence.compare then .comparison else .plain) fuel
      | none =>
        if Precedence.assign ≥ base && assignSign tokens then
          symbol "="
          discard (rightOperand g allowStruct Precedence.assign)
          go .plain fuel
        else if Precedence.range ≥ base && Peek.symbol ".." tokens then
          let operator ← here
          rangeRest g allowStruct
          go (.range operator) fuel
        else if Precedence.cast ≥ base && Peek.keyword "as" tokens then
          keyword "as"
          discard (g (.type false))
          refuseAfterCast
          go .plain fuel
        else return left
  go left ((← get).tokens.length + 1)

/-- An expression with its operators. -/
def expression (g : Grammar) (allowStruct : Bool) : Parser ExprShape := do
  operators g (← g (.unary allowStruct)) allowStruct Precedence.lowest

end ApiDecl.Syntax.Parser
