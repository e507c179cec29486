import ApiDecl.Syntax.Parser.Statement

/-!
# The whole grammar

The parsers of the recursive parts are tied together level by level: a parser at one level contains
parts of the level below. Every level reads at least one token of its own in at most three steps, so
the number of tokens bounds the number of levels, and the lowest level is never reached.

The entry points read a whole file, a single type, a list of attributes, or the content of an
attribute.
-/

namespace ApiDecl.Syntax

open ApiDecl.Syntax.Parser

/-- The parsers of one level above a grammar. -/
def Grammar.above (g : Grammar) : Grammar
  | .type allowPlus => typeExpr g allowPlus
  | .bound place => Parser.bound g place
  | .expression allowStruct => expression g allowStruct
  | .leadingExpression => leadingExpression g
  | .unary allowStruct => unary g allowStruct
  | .operators left allowStruct base => operators g left allowStruct base
  | .statements => statements g
  | .pattern => singlePattern g
  | .namedFields => namedFields g
  | .item => item g
  | .useTree allowRoot => useTree g allowRoot

/-- The grammar with a given number of levels. -/
def Grammar.ofDepth : Nat → Grammar
  | 0 => fun _ => failHere "nesting too deep"
  | depth + 1 => (ofDepth depth).above

/-- A grammar that is deep enough for a token sequence. -/
def Grammar.for (tokens : List Token) : Grammar := Grammar.ofDepth (3 * Token.sizeAll tokens + 8)

/-- The items of a file that are found from its tokens. -/
def items? (tokens : List Token) : Except SyntaxError (List Item) := do
  let g := Grammar.for tokens
  let (_, items) ← runAll (do discard (innerAttributes g); discard (manyToEnd (g .item))) tokens
  return items

/-- Reads a declaration file. -/
def SourceFile.parse (path content : String) : Except SyntaxError SourceFile := do
  return ⟨path, ← items? (← tokenizeFile content)⟩

/-- Reads a text that is a single type. -/
def TypeExpr.parse (text : String) : Except SyntaxError TypeExpr := do
  let tokens ← tokenize text.toList
  return (← runAll (Grammar.for tokens (.type true)) tokens).1

/-- Reads a text that is a list of attributes before a declaration. -/
def Attribute.parseList (text : String) : Except SyntaxError (List Attribute) := do
  let tokens ← tokenize text.toList
  return (← runAll (outerAttributes (Grammar.for tokens)) tokens).1

/-- The items of a list of attributes between commas. -/
def metaItems (tokens : List Token) :
    Except SyntaxError (List (ModulePath × AttributeContent)) := do
  return (← runAll (commaSeparated (metaItem (Grammar.for tokens))) tokens).1.1

end ApiDecl.Syntax
