import ApiDecl.Syntax.Parser.Basic

/-!
# The recursive parts of the grammar

Types, expressions, blocks, patterns and items contain each other. Every parser of one of them takes
a `Grammar`, which answers for all of these parts, and uses it wherever one part contains another;
the knot is tied once, level by level.
-/

namespace ApiDecl.Syntax

/-- What the parser of a surrounding construct has to know about an expression. -/
inductive ExprShape where
  /-- Nothing. -/
  | plain
  /-- A comparison that is not in brackets. -/
  | comparison
  /-- A range that is not in brackets, and where its operator is. -/
  | range (operator : Position)
  /-- An expression that ends in a block, such as `if` or `match`. -/
  | block
  /-- A macro call with braces. -/
  | bracedMacro
  /-- A string literal and its value. -/
  | text (value : String)
  /-- An expression of which only the spelling is known. -/
  | spelled
  deriving DecidableEq, Inhabited

/-- Whether an expression is a range that is not in brackets. -/
def ExprShape.isRange : ExprShape → Bool
  | range _ => true
  | plain | comparison | block | bracedMacro | text _ | spelled => false

/-- What a statement or a match arm has to know about its expression. -/
structure LeadingShape where
  /-- The shape of the whole expression. -/
  shape : ExprShape
  /-- The shape of its first operand. -/
  first : ExprShape
  deriving Inhabited

/-- What the parser of a surrounding construct has to know about a pattern. -/
inductive PatternShape where
  /-- Nothing. -/
  | plain
  /-- A range without one of its ends, and where its operator is. -/
  | openRange (operator : Position)
  /-- A pattern of which only the spelling is known. -/
  | spelled
  deriving DecidableEq, Inhabited

/-- How tightly an operator binds, from the loosest. -/
abbrev Precedence := Nat

namespace Precedence

/-- Looser than every operator. -/
def lowest : Precedence := 0

/-- Assignments. -/
def assign : Precedence := 1

/-- Ranges. -/
def range : Precedence := 2

/-- Comparisons. -/
def compare : Precedence := 6

/-- Conversions. -/
def cast : Precedence := 13

end Precedence

/-- Where a bound occurs, which decides what it may be. -/
structure BoundPlace where
  /-- Whether captured parameters may be listed with `use`. -/
  allowCapture : Bool
  /-- Whether a bound may be marked constant. -/
  allowConst : Bool

/-- The bounds of a parameter or a trait. -/
def BoundPlace.parameter : BoundPlace := ⟨false, true⟩

/-- The bounds of a trait object. -/
def BoundPlace.object : BoundPlace := ⟨false, false⟩

/-- The bounds of an anonymous type. -/
def BoundPlace.anonymous : BoundPlace := ⟨true, true⟩

/-- What kind of bound was read. -/
inductive BoundKind where
  /-- A lifetime. -/
  | lifetime
  /-- A list of captured parameters. -/
  | capture
  /-- A trait. -/
  | trait
  deriving DecidableEq, Inhabited

/-- A part of the grammar that other parts contain. -/
inductive Nonterminal where
  /-- A type; `allowPlus` says whether it may be a sum of bounds. -/
  | type (allowPlus : Bool)
  /-- A bound on a type. -/
  | bound (place : BoundPlace)
  /-- An expression; `allowStruct` says whether a brace after a path starts a struct literal. -/
  | expression (allowStruct : Bool)
  /-- An expression in statement position, after its attributes. -/
  | leadingExpression
  /-- An expression without binary operators. -/
  | unary (allowStruct : Bool)
  /-- The operators after an expression that bind at least as tightly as `base`. -/
  | operators (left : ExprShape) (allowStruct : Bool) (base : Precedence)
  /-- The statements of a block, up to the end of its group. -/
  | statements
  /-- A pattern without alternatives. -/
  | pattern
  /-- Named fields, up to the end of their group. -/
  | namedFields
  /-- An item. -/
  | item
  /-- One branch of an import; `allowRoot` says whether the branches below it may start at the root
  of all paths. -/
  | useTree (allowRoot : Bool)

/-- What a part of the grammar stands for. An import answers whether all of its branches start where
they may. -/
abbrev Nonterminal.Value : Nonterminal → Type
  | .type _ => TypeExpr
  | .bound _ => BoundKind
  | .expression _ | .unary _ | .operators .. => ExprShape
  | .leadingExpression => LeadingShape
  | .pattern => PatternShape
  | .namedFields => List FieldDecl
  | .useTree _ => Bool
  | .statements | .item => Unit

/-- A parser for every recursive part of the grammar. -/
abbrev Grammar := (part : Nonterminal) → Parser part.Value

end ApiDecl.Syntax
