import ApiDecl.Syntax.Parser.TypeExpr

/-!
# Patterns

Patterns occur in parameters, bindings and match arms. Nothing of them is kept but their tokens and
whether they are ranges without an end, which a slice refuses.
-/

namespace ApiDecl.Syntax.Parser

/-! ## Parts of patterns -/

/-- A path in a pattern or an expression, and whether it is plain enough to name a macro. -/
def valuePath (g : Grammar) : Parser Bool := do
  if ← peek (Peek.symbol "<") then
    discard (projection g true)
    return false
  return isModulePath (← path g true).2

/-- The name or number of a field; the answer says whether it is a name. -/
def member : Parser Bool := do
  if ← peek Peek.name then
    discard name
    return true
  if ← peek Peek.wholeNumber then
    discard fieldNumber
    return false
  fail "expected identifier or integer"

/-- An alternative of patterns, with an optional bar in front. -/
def alternativePattern (g : Grammar) : Parser PatternShape := do
  let bar := Peek.butNot (Peek.symbol "|") (Peek.oneOf [Peek.symbol "||", Peek.symbol "|="])
  let leading ← optionalSymbol "|"
  let first ← g .pattern
  let others ← manyWhile bar do
    symbol "|"
    g .pattern
  return if leading || !others.isEmpty then .plain else first

/-- Patterns between commas, up to the end of the group. -/
def patternList (g : Grammar) : Parser Unit := discard (commaSeparated (alternativePattern g))

/-! ## Ranges -/

/-- What a pattern without an upper bound is followed by. -/
def endsRangePattern : Peek :=
  Peek.oneOf [Peek.atEnd, Peek.symbol "|", Peek.symbol "=", Peek.colon, Peek.symbol ",",
    Peek.symbol ";", Peek.keyword "if"]

/-- What the bound of a range pattern may be. -/
def patternBounds : List Expectation :=
  [.literal, .name, .symbol "::", .symbol "<", .keyword "self", .keyword "Self", .keyword "super",
    .keyword "crate", .keyword "const"]

/-- A bound of a range pattern, if there is one; the answer says whether there is. -/
def patternBound (g : Grammar) : Parser Bool := do
  if ← peek endsRangePattern then return false
  if ← peek Peek.literal then discard literal
  else if ← peek (Peek.oneOf [Peek.itemPath, Peek.symbol "<", Peek.keyword "Self"]) then
    discard (valuePath g)
  else if ← peek (Peek.keyword "const") then
    keyword "const"
    discard (body g)
  else failExpecting patternBounds
  return true

/-- The operator of a range pattern; the answer says whether the range needs an upper bound. An
operator of three points is printed as one with an equals sign. -/
def patternRangeOperator : Parser Bool := do
  if ← optionalSymbol "..=" then return true
  if ← peek (Peek.symbol "...") then
    printedAs (fun _ => symbolTokens "..=".toList) (symbol "...")
    return true
  symbol ".."
  return false

/-- The rest of a range pattern from its operator on. A range without bounds stands for any number
of elements. -/
def rangePattern (g : Grammar) (hasLower : Bool) : Parser PatternShape := do
  let operator ← here
  let closed ← patternRangeOperator
  let hasUpper ← patternBound g
  if closed && !hasUpper then fail "expected range upper bound"
  return if hasLower != hasUpper then .openRange operator else .plain

/-! ## Kinds of patterns -/

/-- A name that is bound, with its markers. -/
def bindingPattern (g : Grammar) : Parser Unit := do
  discard (optionalKeyword "ref")
  discard (optionalKeyword "mut")
  discard (nameOr ["self"])
  if ← optionalSymbol "@" then discard (g .pattern)

/-- One field of a struct pattern without its attributes. -/
def fieldPattern (g : Grammar) : Parser Unit := asWrittenUnless do
  let boxed ← optionalKeyword "box"
  let byRef ← optionalKeyword "ref"
  let mutable ← optionalKeyword "mut"
  if boxed || byRef || mutable then
    discard name
    return !boxed
  let named ← member
  let colon ← peek (Peek.symbol ":")
  if colon || !named then
    symbol ":"
    discard (alternativePattern g)
  return true

/-- The fields of a struct pattern, which end at two points. -/
def fieldPatterns (g : Grammar) : Parser Unit := discard <| many do
  if ← atEnd then return none
  discard (outerAttributes g)
  if ← optionalSymbol ".." then return none
  fieldPattern g
  if ← atEnd then return none
  symbol ","
  return some ()

/-- A pattern that starts with a path. -/
def pathPattern (g : Grammar) : Parser PatternShape := do
  let plain ← valuePath g
  let calls ← peek (Peek.butNot (Peek.symbol "!") (Peek.symbol "!="))
  if calls && plain then
    symbol "!"
    discard anyGroup
  else if ← peek (Peek.group .brace) then group .brace (fieldPatterns g)
  else if ← peek (Peek.group .paren) then group .paren (patternList g)
  else if ← peek (Peek.symbol "..") then return ← rangePattern g true
  return .plain

/-- The elements of a slice pattern; a range without one of its ends is none of them. -/
def slicePattern (g : Grammar) : Parser Unit := group .bracket <| discard <| commaSeparated do
  match ← alternativePattern g with
  | .openRange operator =>
    throw ⟨operator, "range pattern is not allowed unparenthesized inside slice pattern"⟩
  | _ => return ()

/-- What follows the first name of a pattern that is more than a binding. -/
def afterPatternName : Peek :=
  Peek.oneOf [Peek.symbol "::", Peek.symbol "!", Peek.group .brace, Peek.group .paren,
    Peek.symbol ".."]

/-- A pattern that starts with a path and is more than a binding. -/
def startsPathPattern : Peek :=
  Peek.oneOf [Peek.followedBy Peek.name afterPatternName,
    Peek.followedBy (Peek.keyword "self") (Peek.symbol "::"),
    Peek.symbol "::", Peek.symbol "<", Peek.oneKeyword ["Self", "super", "crate"]]

/-- What a pattern may start with. -/
def patternStarts : List Expectation :=
  [.name, .symbol "::", .symbol "<", .keyword "_", .literal, .keyword "const", .keyword "ref",
    .keyword "mut", .symbol "&", .group .paren, .group .bracket, .symbol "..", .keyword "const"]

/-- A pattern without alternatives. -/
def singlePattern (g : Grammar) : Parser PatternShape := do
  let plainly (p : Parser Unit) : Parser PatternShape := do p; return .plain
  if ← peek startsPathPattern then pathPattern g
  else if ← peek (Peek.keyword "_") then plainly (keyword "_")
  else if ← peek (Peek.keyword "box") then
    asWritten do
      keyword "box"
      discard (g .pattern)
    return .spelled
  else if ← peek (Peek.oneOf [Peek.symbol "-", Peek.literal, Peek.keyword "const"]) then
    discard (patternBound g)
    if ← peek (Peek.symbol "..") then rangePattern g true else return .plain
  else if ← peek (Peek.oneOf [Peek.oneKeyword ["ref", "mut", "self"], Peek.name]) then
    plainly (bindingPattern g)
  else if ← peek (Peek.symbol "&") then
    plainly do
      symbol "&"
      discard (optionalKeyword "mut")
      discard (g .pattern)
  else if ← peek (Peek.group .paren) then plainly (group .paren (patternList g))
  else if ← peek (Peek.group .bracket) then plainly (slicePattern g)
  else if ← peek (Peek.butNot (Peek.symbol "..") (Peek.symbol "...")) then rangePattern g false
  else failExpecting patternStarts

end ApiDecl.Syntax.Parser
