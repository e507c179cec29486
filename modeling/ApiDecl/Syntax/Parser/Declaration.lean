import ApiDecl.Syntax.Parser.Signature

/-!
# Declarations

Declarations of data, types, constants and names from elsewhere. A declaration that is not complete,
such as a constant without a value, is accepted, but nothing more than its spelling is kept; the
parsers of such declarations answer whether they are complete.
-/

namespace ApiDecl.Syntax.Parser

/-! ## Macro calls -/

/-- What follows the name of a macro call as an item. -/
def macroBody : Parser Unit := do
  let (d, _) ← anyGroup
  unless d = .brace do symbol ";"

/-- A macro call as an item; it may name what it defines. -/
def macroItem : Parser Unit := do
  discard modulePath
  symbol "!"
  if ← peek (Peek.oneOf [Peek.name, Peek.keyword "try"]) then discard anyWord
  macroBody

/-- A macro call as a member of another item. -/
def macroMember : Parser Unit := do
  discard modulePath
  symbol "!"
  macroBody

/-! ## Structs, enumerations and unions -/

/-- Named fields in braces. -/
def fieldBlock (g : Grammar) : Parser (List FieldDecl) := group .brace (namedFields g)

/-- Unnamed fields in round brackets. -/
def unnamedFields (g : Grammar) : Parser Unit := group .paren <| discard <| commaSeparated do
  discard (outerAttributes g)
  discard visibility
  discard (g (.type true))

/-- Conditions where others than a `where` may stand. The answer is what else would have been
possible there. -/
def expectedConditions (g : Grammar) : Parser (List Expectation) := do
  return if ← whereClause g then [] else [.keyword "where"]

/-- The end of a struct with unnamed fields. -/
def unnamedFieldsEnd (g : Grammar) : Parser Unit := do
  let conditions ← expectedConditions g
  unless ← optionalSymbol ";" do failExpecting (conditions ++ [.symbol ";"])

/-- What may follow the name and the generic parameters of a struct: its fields, if they are
named. -/
def structBody (g : Grammar) : Parser (Option (List FieldDecl)) := do
  let conditions ← expectedConditions g
  let unnamed ← peek (Peek.group .paren)
  if unnamed && !conditions.isEmpty then
    unnamedFields g
    unnamedFieldsEnd g
    return none
  if ← peek (Peek.group .brace) then return some (← fieldBlock g)
  if ← optionalSymbol ";" then return none
  let tuple := if conditions.isEmpty then [] else [Expectation.group .paren]
  failExpecting (conditions ++ tuple ++ [.group .brace, .symbol ";"])

/-- A struct without its attributes and visibility. -/
def structItem (g : Grammar) (attributes : List Attribute) : Parser Item := do
  keyword "struct"
  let structName ← name
  discard (genericParameters g)
  return .struct ⟨attributes, structName, ← structBody g⟩

/-- One variant of an enumeration; its visibility means nothing. -/
def variant (g : Grammar) : Parser Unit := do
  discard (outerAttributes g)
  discard (unprinted visibility)
  discard name
  if ← peek (Peek.group .brace) then discard (fieldBlock g)
  else if ← peek (Peek.group .paren) then unnamedFields g
  if ← optionalSymbol "=" then discard (g (.expression true))

/-- An enumeration from its keyword on. -/
def enumItem (g : Grammar) : Parser Unit := do
  keyword "enum"
  discard name
  discard (genericParameters g)
  discard (whereClause g)
  group .brace (discard (commaSeparated (variant g)))

/-- A union from its keyword on. -/
def unionItem (g : Grammar) : Parser Unit := do
  keyword "union"
  discard name
  discard (genericParameters g)
  discard (whereClause g)
  discard (fieldBlock g)

/-! ## Types and values -/

/-- Where the conditions of a type declaration may stand. -/
inductive ConditionPlace where
  /-- Before the equals sign. -/
  | beforeDefinition
  /-- After the definition. -/
  | afterDefinition
  /-- In either place. -/
  | anywhere
  deriving DecidableEq

/-- A type declaration that has been read. -/
structure TypeItem where
  /-- Whether it has a colon for bounds. -/
  bounded : Bool
  /-- Whether it has a definition. -/
  defined : Bool

/-- A type declaration from its keyword on. -/
def typeItem (g : Grammar) (place : ConditionPlace) : Parser TypeItem := do
  keyword "type"
  discard name
  discard (genericParameters g)
  let stop := Peek.oneOf [Peek.keyword "where", Peek.symbol "=", Peek.symbol ";"]
  let bounded ← peek (Peek.symbol ":")
  discard <| unlessEmpty do
    unless ← optionalSymbol ":" do return []
    return (← separatedUntil stop "+" (g (.bound .parameter))).1
  let early ← if place ≠ .afterDefinition then whereClause g else pure false
  let defined ← optionalSymbol "="
  if defined then discard (g (.type true))
  if place ≠ .beforeDefinition && !early then discard (whereClause g)
  symbol ";"
  return ⟨bounded, defined⟩

/-- A constant that has been read. -/
structure ConstItem where
  /-- Whether it has a value. -/
  defined : Bool
  /-- Whether it has generic parameters or conditions on them. -/
  generic : Bool

/-- A constant from its name on. -/
def constRest (g : Grammar) : Parser ConstItem := do
  discard (nameOr ["_"])
  let parameters ← genericParameters g
  symbol ":"
  discard (g (.type true))
  let defined ← optionalSymbol "="
  if defined then discard (g (.expression true))
  let conditions ← whereClause g
  symbol ";"
  return ⟨defined, parameters || conditions⟩

/-- A constant from its keyword on. -/
def constItem (g : Grammar) : Parser ConstItem := do
  keyword "const"
  unless ← peek (Peek.oneOf [Peek.name, Peek.keyword "_"]) do failExpecting [.name, .keyword "_"]
  constRest g

/-- A static variable from its keyword on, complete if it has a type and a value. -/
def staticItem (g : Grammar) : Parser Bool := do
  keyword "static"
  discard (optionalKeyword "mut")
  discard name
  if ← optionalSymbol "=" then
    discard (g (.expression true))
    symbol ";"
    return false
  symbol ":"
  discard (g (.type true))
  if ← optionalSymbol ";" then return false
  symbol "="
  discard (g (.expression true))
  symbol ";"
  return true

/-! ## Imports -/

/-- A list of branches of an import, complete if none of them starts at the root of all paths. -/
def useBranches (g : Grammar) (allowRoot : Bool) : Parser Bool := group .brace do
  let (branches, _) ← commaSeparated do
    let root ← if allowRoot then optionalSymbol "::" else pure false
    let complete ← g (.useTree (allowRoot && !root))
    return complete && !root
  return branches.all id

/-- What a branch of an import may start with. -/
def useStarts : List Expectation :=
  .name :: Expectation.keywords ["self", "super", "crate", "try"] ++ [.symbol "*", .group .brace]

/-- One branch of an import. -/
def useTree (g : Grammar) (allowRoot : Bool) : Parser Bool := do
  if ← peek (Peek.oneOf [Peek.name, Peek.oneKeyword ["self", "super", "crate", "try"]]) then
    discard anyWord
    if ← optionalSymbol "::" then discard (g (.useTree false))
    else if ← optionalKeyword "as" then
      unless ← peek (Peek.oneOf [Peek.name, Peek.keyword "_"]) do
        fail "expected identifier or underscore"
      discard anyWord
    return true
  if ← optionalSymbol "*" then return true
  unless ← peek (Peek.group .brace) do failExpecting useStarts
  useBranches g allowRoot

/-- An import from its keyword on. -/
def useItem (g : Grammar) : Parser Bool := do
  keyword "use"
  let root ← optionalSymbol "::"
  let complete ← g (.useTree !root)
  symbol ";"
  return complete

/-- An external crate from its keyword on. -/
def externCrate : Parser Unit := do
  keyword "extern"
  keyword "crate"
  discard (nameOr ["self"])
  if ← optionalKeyword "as" then discard (nameOr ["_"])
  symbol ";"

end ApiDecl.Syntax.Parser
