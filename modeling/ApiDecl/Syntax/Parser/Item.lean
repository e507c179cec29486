import ApiDecl.Syntax.Parser.Container

/-!
# Items

Items declare names. Every item that is read is recorded with the items found inside it and in its
attributes; an item of which only the spelling is known has none, and its attributes are lost.
-/

namespace ApiDecl.Syntax.Parser

/-! ## Kinds of items -/

/-- The keywords that an item may start with. -/
def itemKeywords : List String :=
  ["fn", "extern", "use", "static", "const", "unsafe", "mod", "type", "struct", "enum", "union",
    "trait", "auto", "impl", "default", "macro"]

/-- An item that is recorded as `other` with what is inside it, if it is complete. -/
def otherItem (p : Parser Bool) : Parser (Option Item) := do
  let (complete, items) ← nesting p
  return if complete then some (.other items) else none

/-- An item that is recorded as `other` and always complete. -/
def completeItem (p : Parser Unit) : Parser (Option Item) := otherItem do p; return true

/-- A function, complete if it has a body. -/
def functionItem (g : Grammar) : Parser (Option Item) := do
  let (complete, items) ← nesting (implementationFunction g)
  return if complete then some (.function items) else none

/-- An implementation; one with a visibility is not complete. -/
def implementationItem (g : Grammar) (visible : Visibility) : Parser (Option Item) := do
  let (complete, items) ← nesting (implementation g)
  return if complete && visible = .inherited then some (.implementation items) else none

/-- A module with what is inside it. -/
def modItem (g : Grammar) : Parser (Option Item) := do
  return some (.module (← nesting (moduleItem g)).2)

/-- A foreign module, which takes no visibility; `start` is where that would be. -/
def foreignModuleItem (g : Grammar) (start : Position) (visible : Visibility) :
    Parser (Option Item) := do
  unless visible = .inherited do throw ⟨start, "expected `extern`"⟩
  completeItem (foreignModule g)

/-- A trait that is marked as automatic. -/
def startsAutoTrait : Peek := Peek.followedBy (Peek.keyword "auto") (Peek.keyword "trait")

/-- A trait with its markers. -/
def markedTrait (g : Grammar) (attributes : List Attribute) : Parser (Option Item) := do
  discard (optionalKeyword "unsafe")
  discard (optionalKeyword "auto")
  return some (← traitItem g attributes false)

/-- An item after `unsafe` that is not a function. -/
def unsafeItem (g : Grammar) (attributes : List Attribute) (start : Position)
    (visible : Visibility) : Parser (Option Item) := do
  let after (test : Peek) : Parser Bool := peek (Peek.second test)
  if ← after (Peek.oneOf [Peek.keyword "trait", startsAutoTrait]) then markedTrait g attributes
  else if ← after (Peek.keyword "impl") then implementationItem g visible
  else if ← after (Peek.keyword "extern") then foreignModuleItem g start visible
  else if ← after (Peek.keyword "mod") then modItem g
  else
    keyword "unsafe"
    failExpecting (Expectation.keywords ["trait", "auto", "impl", "extern", "mod"])

/-- An item after `extern` that is not a function. -/
def externItem (g : Grammar) (start : Position) (visible : Visibility) : Parser (Option Item) := do
  if ← peek (Peek.second (Peek.keyword "crate")) then return ← completeItem externCrate
  let before ← get
  keyword "extern"
  if ← peek Peek.stringLiteral then
    discard literal
    unless ← peek (Peek.group .brace) do failExpecting [.group .brace]
  else unless ← peek (Peek.group .brace) do
    failExpecting [.keyword "crate", .group .brace, .stringLiteral]
  set before
  foreignModuleItem g start visible

/-- The start of an implementation. -/
def startsImplementation : Peek := Peek.oneOf [Peek.keyword "impl",
  Peek.butNot (Peek.keyword "default") (Peek.second (Peek.symbol "!"))]

/-- An item after its attributes; there is none if only its spelling is known. -/
def itemAfterAttributes (g : Grammar) (attributes : List Attribute) : Parser (Option Item) := do
  let start ← here
  let visible ← visibility
  if ← startsSignature false then functionItem g
  else if ← peek (Peek.keyword "extern") then externItem g start visible
  else if ← peek (Peek.keyword "use") then otherItem (useItem g)
  else if ← peek (Peek.keyword "static") then otherItem (staticItem g)
  else if ← peek (Peek.keyword "const") then
    otherItem do
      let c ← constItem g
      return c.defined && !c.generic
  else if ← peek (Peek.keyword "unsafe") then unsafeItem g attributes start visible
  else if ← peek (Peek.keyword "mod") then modItem g
  else if ← peek (Peek.keyword "type") then
    otherItem do
      let t ← typeItem g .beforeDefinition
      return t.defined && !t.bounded
  else if ← peek (Peek.keyword "struct") then some <$> structItem g attributes
  else if ← peek (Peek.keyword "enum") then completeItem (enumItem g)
  else if ← peek (Peek.followedBy (Peek.keyword "union") Peek.name) then
    completeItem (unionItem g)
  else if ← peek (Peek.keyword "trait") then some <$> traitItem g attributes true
  else if ← peek startsAutoTrait then markedTrait g attributes
  else if ← peek startsImplementation then implementationItem g visible
  else if ← peek (Peek.keyword "macro") then
    otherItem do
      macroDefinition
      return false
  else if visible = .inherited && (← peek Peek.itemPath) then completeItem macroItem
  else failExpecting (memberStarts itemKeywords (visible ≠ .inherited))

/-! ## Records -/

/-- Puts items in front of those inside another item, if that is one whose content is visible. -/
def prependInner (items : List Item) : Item → Item
  | .module inner => .module (items ++ inner)
  | .other inner => .other (items ++ inner)
  | i => i

/-- The rest of an item after its attributes, which were read since `start`. The item is recorded,
and items in its attributes count as being inside it. -/
def restOfItem (g : Grammar) (start : List Token) (attributes : List Attribute)
    (attributeTrace : Trace) : Parser Unit := do
  let (i?, t) ← tracing (itemAfterAttributes g attributes)
  match i? with
  | some i =>
    leave (attributeTrace.append t).withoutItems
    recordItem (prependInner (attributeTrace.items.reverse ++ t.items.reverse) i)
  | none =>
    emit (← sourceSince start)
    recordItem (.other [])

/-- An item, which is recorded. -/
def item (g : Grammar) : Parser Unit := do
  let start := (← get).tokens
  let (attributes, t) ← tracing (outerAttributes g)
  restOfItem g start attributes t

end ApiDecl.Syntax.Parser
