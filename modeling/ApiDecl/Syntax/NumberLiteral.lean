import ApiDecl.Syntax.StringLiteral

/-!
# Number literals

A number is whole or has a fraction. It is whole if it has neither a point nor an exponent, in which
case it may be written in base two, eight, ten or sixteen, with underscores between its digits and a
word as its suffix.
-/

namespace ApiDecl.Syntax

/-- What the spelling of a number stands for. -/
inductive NumberLiteral where
  /-- A whole number and its suffix. -/
  | whole (value : Nat) (suffix : String)
  /-- A number with a fraction or an exponent. -/
  | fraction
  deriving Repr, DecidableEq, Inhabited

namespace NumberLiteral

open StringLiteral

/-- The base of a whole number, and what follows the mark of the base. -/
def splitBase : List Char → Nat × List Char
  | '0' :: 'x' :: rest => (16, rest)
  | '0' :: 'o' :: rest => (8, rest)
  | '0' :: 'b' :: rest => (2, rest)
  | cs => (10, cs)

/-- Whether a character is a digit in a base, or an underscore. -/
def isDigitOrBlank (base : Nat) (c : Char) : Bool := c == '_' || (hexValue? c).any (· < base)

/-- Whether a decimal number goes on with a point or an exponent behind its digits. -/
def startsFraction : List Char → Bool
  | '.' :: _ => true
  | c :: rest =>
    (c == 'e' || c == 'E') &&
      (rest.dropWhile (· == '_')).head?.any fun d => d == '+' || d == '-' || d.isDigit
  | [] => false

/-- Reads the spelling of a number without a sign; there is none for other literals. -/
def ofSpelling? (spelling : String) : Option NumberLiteral :=
  if spelling.toList.head?.any Char.isDigit then
    let (base, rest) := splitBase spelling.toList
    let digits := rest.takeWhile (isDigitOrBlank base)
    let suffix := rest.dropWhile (isDigitOrBlank base)
    if base = 10 ∧ startsFraction suffix then some .fraction
    else
      some (.whole ((digits.filterMap hexValue?).foldl (base * · + ·) 0) (String.ofList suffix))
  else none

/-- Numbers of fields are smaller than this. -/
def fieldLimit : Nat := 4294967296

/-- The number of a field, or what is wrong with it. -/
def fieldNumber (negative : Bool) (value : Nat) (suffix : String) : Except String Nat :=
  if !suffix.isEmpty then .error "expected unsuffixed integer"
  else if negative then .error "invalid digit found in string"
  else if value < fieldLimit then .ok value
  else .error "number too large to fit in target type"

end NumberLiteral

end ApiDecl.Syntax
