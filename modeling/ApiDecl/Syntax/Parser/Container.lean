import ApiDecl.Syntax.Parser.Declaration

/-!
# Containers of items

Blocks of foreign items, traits, implementations and modules. A member of which only the spelling is
known is traced as it is written, with its attributes.
-/

namespace ApiDecl.Syntax.Parser

/-- What a path that names a macro may start with. -/
def macroStarts : List Expectation :=
  .name :: Expectation.keywords ["self", "super", "crate"] ++ [.symbol "::"]

/-- What a member of a container may start with; a macro call has no markers in front of it. -/
def memberStarts (keywords : List String) (isMarked : Bool) : List Expectation :=
  Expectation.keywords keywords ++ if isMarked then [] else macroStarts

/-! ## Foreign items -/

/-- A foreign function, complete if it is not marked safe and has no body. -/
def foreignFunction (g : Grammar) : Parser Bool := do
  let s ← signature g true
  if ← peek (Peek.group .brace) then
    discard (body g)
    return false
  symbol ";"
  return !s.isSafe

/-- The start of a foreign static variable. -/
def startsForeignStatic : Peek := Peek.oneOf [Peek.keyword "static",
  Peek.followedBy (Peek.oneKeyword ["unsafe", "safe"]) (Peek.keyword "static")]

/-- A foreign static variable, complete if it has no marker and no value. -/
def foreignStatic (g : Grammar) : Parser Bool := do
  let marked ← peek (Peek.oneKeyword ["unsafe", "safe"])
  if marked then discard anyWord
  keyword "static"
  discard (optionalKeyword "mut")
  discard name
  symbol ":"
  discard (g (.type true))
  let defined ← optionalSymbol "="
  if defined then discard (g (.expression true))
  symbol ";"
  return !marked && !defined

/-- An item of a foreign module. -/
def foreignItem (g : Grammar) : Parser Unit := asWrittenUnless do
  discard (outerAttributes g)
  let visible ← visibility
  if ← startsSignature true then foreignFunction g
  else if ← peek startsForeignStatic then foreignStatic g
  else if ← peek (Peek.keyword "type") then
    let t ← typeItem g .anywhere
    return !t.bounded && !t.defined
  else if visible = .inherited && (← peek Peek.itemPath) then
    macroMember
    return true
  else failExpecting (memberStarts ["fn", "static", "type"] (visible ≠ .inherited))

/-- A foreign module. -/
def foreignModule (g : Grammar) : Parser Unit := do
  discard (optionalKeyword "unsafe")
  keyword "extern"
  if ← peek Peek.stringLiteral then discard literal
  group .brace do
    discard (innerAttributes g)
    discard (manyToEnd (foreignItem g))

/-! ## Traits -/

/-- A method of a trait; the attributes at the start of its body are its own. -/
def traitMethod (g : Grammar) (attributes : List Attribute) : Parser MethodDecl := do
  let s ← signature g false
  let inner ← if ← peek (Peek.group .brace) then body g
    else if ← optionalSymbol ";" then pure []
    else failExpecting [.group .brace, .symbol ";"]
  return ⟨attributes ++ inner, s.name, s.parameters, s.result⟩

/-- A constant of a trait, complete if it is not generic. -/
def traitConst (g : Grammar) : Parser Bool := do
  keyword "const"
  unless ← peek (Peek.oneOf [Peek.name, Peek.keyword "_"]) do
    failExpecting
      (.name :: .keyword "_" :: Expectation.keywords ["async", "unsafe", "extern", "fn"])
  return !(← constRest g).generic

/-- A constant function, or what starts like one. -/
def startsConstFunction : Peek := Peek.followedBy (Peek.keyword "const")
  (Peek.oneKeyword ["async", "unsafe", "extern", "fn"])

/-- A member of a trait: a method, if it has no visibility and is no default. -/
def traitMember (g : Grammar) : Parser (Option MethodDecl) := do
  let method? ← asWrittenIfNone do
    let attributes ← outerAttributes g
    let visible ← visibility
    let isDefault ← optionalKeyword "default"
    let isMarked := isDefault || visible ≠ .inherited
    let unmarked (m : Option MethodDecl) := if isMarked then none else some m
    let startsConst ← peek startsConstFunction
    if startsConst || (← startsSignature false) then
      return unmarked (some (← traitMethod g attributes))
    if ← peek (Peek.keyword "const") then
      return if ← traitConst g then unmarked none else none
    if ← peek (Peek.keyword "type") then
      discard (typeItem g .afterDefinition)
      return unmarked none
    if !isMarked && (← peek Peek.itemPath) then
      macroMember
      return some none
    failExpecting (memberStarts ["fn", "const", "type"] isMarked)
  return method?.join

/-- Another name for a sum of bounds, from its equals sign on. -/
def traitAliasRest (g : Grammar) : Parser Unit := do
  discard <| secondMetFirst
    (do
      symbol "="
      separatedUntil (Peek.oneOf [Peek.keyword "where", Peek.symbol ";"]) "+" (g (.bound .object)))
    (whereClause g)
  symbol ";"

/-- The bounds, conditions and members of a trait: its methods, and the attributes at the start of
its body. -/
def traitRest (g : Grammar) : Parser (List Attribute × List MethodDecl) := do
  discard <| unlessEmpty do
    unless ← optionalSymbol ":" do return []
    let stop := Peek.oneOf [Peek.keyword "where", Peek.group .brace]
    return (← separatedUntil stop "+" (g (.bound .parameter))).1
  discard (whereClause g)
  group .brace do
    let inner ← innerAttributes g
    return (inner, (← manyToEnd (traitMember g)).filterMap id)

/-- A trait from its keyword on, or another name for a sum of bounds. -/
def traitItem (g : Grammar) (attributes : List Attribute) (allowAlias : Bool) : Parser Item := do
  let (decl?, items) ← nesting do
    keyword "trait"
    let traitName ← name
    discard (genericParameters g)
    if allowAlias && (← peek (Peek.symbol "=")) then
      traitAliasRest g
      return none
    let starts ← peek (Peek.oneOf [Peek.group .brace, Peek.symbol ":", Peek.keyword "where"])
    if allowAlias && !starts then
      failExpecting [.group .brace, .symbol ":", .keyword "where", .symbol "="]
    let (inner, methods) ← traitRest g
    return some ⟨attributes ++ inner, traitName, methods⟩
  return match decl? with
    | some decl => .trait decl
    | none => .other items

/-! ## Implementations -/

/-- A function of an implementation, complete if it has a body. -/
def implementationFunction (g : Grammar) : Parser Bool := do
  discard (signature g false)
  if ← optionalSymbol ";" then return false
  discard (body g)
  return true

/-- A member of an implementation. -/
def implementationMember (g : Grammar) : Parser Unit := asWrittenUnless do
  discard (outerAttributes g)
  let visible ← visibility
  let isDefault ← peek (Peek.butNot (Peek.keyword "default") (Peek.second (Peek.symbol "!")))
  if isDefault then keyword "default"
  let isMarked := isDefault || visible ≠ .inherited
  if ← startsSignature false then implementationFunction g
  else if ← peek (Peek.keyword "const") then
    let c ← constItem g
    return c.defined && !c.generic
  else if ← peek (Peek.keyword "type") then
    let t ← typeItem g .afterDefinition
    return t.defined && !t.bounded
  else if !isMarked && (← peek Peek.itemPath) then
    macroMember
    return true
  else
    let starts := if isDefault then [] else ["default"]
    failExpecting (memberStarts (starts ++ ["fn", "const", "type"]) isMarked)

/-- What an implementation is for: a type, or a trait and a type. The answer says whether the trait
is a path, if there is one. -/
def implementationHead (g : Grammar) : Parser Bool := do
  let mark ← here
  let negative ← peek (Peek.butNot (Peek.symbol "!") (Peek.second (Peek.group .brace)))
  if negative then symbol "!"
  let first ← g (.type true)
  if ← optionalKeyword "for" then
    discard (g (.type true))
    return first matches .path ..
  if negative then throw ⟨mark, "inherent impls cannot be negative"⟩
  return true

/-- An implementation, complete if it is not constant and if its trait is a path. -/
def implementation (g : Grammar) : Parser Bool := do
  discard (optionalKeyword "default")
  discard (optionalKeyword "unsafe")
  keyword "impl"
  if ← peek Peek.genericParameters then discard (genericParameters g)
  let constant ← peek (Peek.oneOf [Peek.keyword "const",
    Peek.followedBy (Peek.symbol "?") (Peek.keyword "const")])
  if constant then
    discard (optionalSymbol "?")
    keyword "const"
  let complete ← implementationHead g
  discard (whereClause g)
  group .brace do
    discard (innerAttributes g)
    discard (manyToEnd (implementationMember g))
  return complete && !constant

/-! ## Modules and macros -/

/-- A module from its keyword on; its items are recorded. -/
def moduleItem (g : Grammar) : Parser Unit := do
  discard (optionalKeyword "unsafe")
  keyword "mod"
  discard (nameOr ["try"])
  if ← optionalSymbol ";" then return
  unless ← peek (Peek.group .brace) do failExpecting [.symbol ";", .group .brace]
  group .brace do
    discard (innerAttributes g)
    discard (manyToEnd (g .item))

/-- A declarative macro from its keyword on. -/
def macroDefinition : Parser Unit := do
  keyword "macro"
  discard name
  let called ← peek (Peek.group .paren)
  if called then wholeGroup .paren
  unless ← peek (Peek.group .brace) do
    failExpecting ((if called then [] else [.group .paren]) ++ [.group .brace])
  wholeGroup .brace

end ApiDecl.Syntax.Parser
