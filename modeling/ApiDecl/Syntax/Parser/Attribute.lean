import ApiDecl.Syntax.Parser.Grammar

/-!
# Attributes, visibility and blocks

Small parts that most other constructs start or end with. Attributes at the start of a body, after
`#!`, belong to the construct that the body ends, so what is inside them counts as met before the
rest of that construct. Some constructs have a block without such attributes.
-/

namespace ApiDecl.Syntax.Parser

/-! ## Paths without arguments -/

/-- A word that may be a segment of a path. -/
def segmentWord : Peek := Peek.oneOf [Peek.name, Peek.oneKeyword ["super", "self", "Self", "crate"]]

/-- A path without arguments. -/
def modulePath : Parser ModulePath := do
  let absolute ← optionalSymbol "::"
  let first ← if ← peek segmentWord then anyWord else name
  let others ← many do
    if ← optionalSymbol "::" then
      if ← peek segmentWord then return some (← anyWord)
      fail "expected path segment after `::`"
    else return none
  return ⟨absolute, first :: others⟩

/-! ## Attributes -/

/-- A literal with which the group ends. -/
def finalLiteral : Parser (Option String) := attempt do
  let spelling ← literal
  unless ← atEnd do fail "expected nothing"
  return spelling

/-- The value of an attribute after its equals sign: a literal alone, or any expression. The answer
is the value of a string. -/
def attributeValue (g : Grammar) : Parser (Option String) := do
  if let some spelling ← finalLiteral then return StringLiteral.value? spelling
  if ← peek (Peek.followedBy (Peek.symbol "#") (Peek.group .bracket)) then
    fail "unexpected attribute inside of attribute"
  match ← g (.expression true) with
  | .text value => return some value
  | _ => return none

/-- An item of a list of attributes: a path with nothing, a group or a value after it. -/
def metaItem (g : Grammar) : Parser (ModulePath × AttributeContent) := do
  let path ← if ← peek (Peek.keyword "unsafe") then do
      keyword "unsafe"
      pure ⟨false, ["unsafe"]⟩
    else modulePath
  if ← peek Peek.anyGroup then
    let (_, tokens) ← anyGroup
    return (path, .list tokens)
  if ← peek (Peek.butNot (Peek.symbol "=") (Peek.oneOf [Peek.symbol "==", Peek.symbol "=>"])) then
    symbol "="
    return (path, .value (← attributeValue g))
  return (path, .flag)

/-- The part of an attribute in square brackets. -/
def attributeBody (g : Grammar) (position : Position) : Parser Attribute := do
  let (path, content) ← group .bracket (metaItem g)
  return ⟨path, content, position⟩

/-- Attributes before what they apply to. -/
def outerAttributes (g : Grammar) : Parser (List Attribute) :=
  manyWhile (Peek.symbol "#") do
    let position ← here
    symbol "#"
    attributeBody g position

/-- Attributes at the start of a body that they apply to. -/
def innerAttributes (g : Grammar) : Parser (List Attribute) :=
  manyWhile (Peek.followedBy (Peek.symbol "#") (Peek.symbol "!")) do
    let position ← here
    symbol "#"
    symbol "!"
    attributeBody g position

/-! ## Blocks -/

/-- Statements in braces. -/
def block (g : Grammar) : Parser Unit := group .brace (g .statements)

/-- Statements in braces, with the attributes at their start. -/
def body (g : Grammar) : Parser (List Attribute) := group .brace do
  let attributes ← innerAttributes g
  g .statements
  return attributes

/-- A head and a body in braces, whose attributes count as met before the head. -/
def headWithBody (g : Grammar) (head content : Parser Unit) : Parser Unit := do
  let ((), t) ← tracing head
  leave t.withoutItems
  group .brace do
    discard (innerAttributes g)
    leave t.unprinted
    content

/-- Runs two parsers, of which the second one counts as met before the first. -/
def secondMetFirst {α β : Type} (p : Parser α) (q : Parser β) : Parser (α × β) := do
  let (a, first) ← tracing p
  let (b, second) ← tracing q
  leave ⟨second.printed ++ first.printed, first.items ++ second.items⟩
  return (a, b)

/-! ## Visibility -/

/-- How far a declaration is visible. -/
inductive Visibility where
  /-- Nothing is written. -/
  | inherited
  /-- `pub` alone. -/
  | everywhere
  /-- `pub` with a restriction in round brackets. -/
  | restricted
  deriving DecidableEq

/-- The restriction of a visibility: a place alone, or a path after `in`. -/
def visibilityRestriction : Parser Unit := group .paren do
  if ← peek (Peek.oneKeyword ["crate", "self", "super"]) then
    discard anyWord
    unless ← atEnd do fail "expected nothing"
  else
    keyword "in"
    discard modulePath

/-- A visibility. Round brackets that hold something else than a restriction are not part of it. -/
def visibility : Parser Visibility := do
  unless ← optionalKeyword "pub" do return .inherited
  if ← peek (Peek.group .paren) then
    let inPath ← peek fun
      | .group _ content _ _ :: _ => Peek.keyword "in" content
      | _ => false
    if inPath then
      visibilityRestriction
      return .restricted
    if (← attempt visibilityRestriction).isSome then return .restricted
  return .everywhere

end ApiDecl.Syntax.Parser
