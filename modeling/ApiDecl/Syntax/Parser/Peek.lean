import ApiDecl.Syntax.NumberLiteral
import ApiDecl.Syntax.Tree

/-!
# What comes next

Tests on the front of a token sequence, which parsers use to choose between alternatives. A symbol
of several characters is a run of glued marks, and a lifetime counts as one token. A test together
with the name that messages use for what it looks for is an `Expectation`.
-/

namespace ApiDecl.Syntax

/-- A test on the front of a token sequence. -/
abbrev Peek := List Token → Bool

namespace Peek

/-- The words that are not names by themselves. -/
def reservedWords : List String :=
  ["_", "abstract", "as", "async", "await", "become", "box", "break", "const", "continue", "crate",
    "do", "dyn", "else", "enum", "extern", "false", "final", "fn", "for", "if", "impl", "in", "let",
    "loop", "macro", "match", "mod", "move", "mut", "override", "priv", "pub", "ref", "return",
    "Self", "self", "static", "struct", "super", "trait", "true", "try", "type", "typeof", "unsafe",
    "unsized", "use", "virtual", "where", "while", "yield"]

/-! ## Combining tests -/

/-- Nothing is left. -/
def atEnd : Peek := List.isEmpty

/-- One of several tests succeeds. -/
def oneOf (tests : List Peek) : Peek := fun tokens => tests.any (· tokens)

/-- All of several tests succeed. -/
def allOf (tests : List Peek) : Peek := fun tokens => tests.all (· tokens)

/-- The first test succeeds and the second does not. -/
def butNot (test exception : Peek) : Peek := fun tokens => test tokens && !exception tokens

/-- The tokens after the first one. -/
def dropOne : List Token → List Token
  | .mark c true _ :: .word w q :: rest =>
    if c == Char.ofNat 0x27 then rest else .word w q :: rest
  | _ :: rest => rest
  | [] => []

/-- A test on what follows the first token; it fails if there is no first token. -/
def second (test : Peek) : Peek := fun tokens => !tokens.isEmpty && test (dropOne tokens)

/-- A test on what follows the first two tokens. -/
def third (test : Peek) : Peek := second (second test)

/-- One test succeeds here and another on what follows the first token. -/
def followedBy (test next : Peek) : Peek := allOf [test, second next]

/-! ## Single tokens -/

/-- The characters of a symbol, all but the last glued to the next. -/
def symbolChars : List Char → Peek
  | [], _ => true
  | [c], .mark d _ _ :: _ => c == d
  | c :: rest, .mark d joint _ :: tokens => c == d && joint && symbolChars rest tokens
  | _, _ => false

/-- A symbol such as `::`. A symbol also matches the start of a longer one. -/
def symbol (s : String) : Peek := symbolChars s.toList

/-- A single colon. -/
def colon : Peek := butNot (symbol ":") (symbol "::")

/-- A single point, which is not the start of a range. -/
def point : Peek := butNot (symbol ".") (symbol "..")

/-- A given word. -/
def keyword (w : String) : Peek
  | .word v _ :: _ => v == w
  | _ => false

/-- One of several words. -/
def oneKeyword (words : List String) : Peek
  | .word v _ :: _ => words.contains v
  | _ => false

/-- Any word, reserved or not. -/
def anyWord : Peek
  | .word .. :: _ => true
  | _ => false

/-- A name: a word that is not reserved. -/
def name : Peek
  | .word v _ :: _ => !reservedWords.contains v
  | _ => false

/-- A lifetime. -/
def lifetime : Peek
  | .mark c true _ :: .word .. :: _ => c == Char.ofNat 0x27
  | _ => false

/-- A group with a given delimiter. -/
def group (d : Delimiter) : Peek
  | .group e .. :: _ => d == e
  | _ => false

/-- A group with any delimiter. -/
def anyGroup : Peek
  | .group .. :: _ => true
  | _ => false

/-! ## Literals -/

/-- The number that comes next, and whether a minus sign stands in front of it. -/
def number? : List Token → Option (Bool × NumberLiteral)
  | .literal text _ :: _ => (NumberLiteral.ofSpelling? text).map (false, ·)
  | .mark '-' _ _ :: .literal text _ :: _ => (NumberLiteral.ofSpelling? text).map (true, ·)
  | _ => none

/-- A literal, which a truth value and a negative number are too. -/
def literal : Peek
  | .literal .. :: _ => true
  | .word v _ :: _ => v == "true" || v == "false"
  | tokens => (number? tokens).isSome

/-- A whole number, which may be negative. -/
def wholeNumber : Peek := fun tokens =>
  match number? tokens with
  | some (_, .whole ..) => true
  | _ => false

/-- A number with a fraction, which may be negative. -/
def fraction : Peek := fun tokens =>
  match number? tokens with
  | some (_, .fraction) => true
  | _ => false

/-- A string literal, plain or raw. -/
def stringLiteral : Peek
  | .literal text _ :: _ => text.startsWith "\"" || text.startsWith "r"
  | _ => false

/-! ## Starts of constructs -/

/-- The start of a path that is not below another type: a name, `self`, `super`, `crate` or `::`. -/
def itemPath : Peek := oneOf [name, oneKeyword ["self", "super", "crate"], symbol "::"]

/-- Generic parameters, rather than a path in angle brackets. -/
def genericParameters : Peek :=
  followedBy (symbol "<") (oneOf [symbol ">", symbol "#", keyword "const",
    followedBy (oneOf [lifetime, name]) (oneOf [symbol ">", symbol ",", colon, symbol "="])])

/-- A receiver: `self`, with its markers in front of it, that is not the start of a path. -/
def receiver : Peek := fun tokens =>
  let tokens := if symbol "&" tokens then
      let rest := tokens.drop 1
      if lifetime rest then rest.drop 2 else rest
    else tokens
  let tokens := if keyword "mut" tokens then tokens.drop 1 else tokens
  followedBy (keyword "self") (fun rest => !symbol "::" rest) tokens

end Peek

/-- What a parser may find at some place, with its name in messages. -/
structure Expectation where
  /-- Whether it is there. -/
  test : Peek
  /-- How a message refers to it. -/
  description : String

namespace Expectation

/-- How a message refers to a word or symbol. -/
def ticked (s : String) : String := "`" ++ s ++ "`"

/-- A given word. -/
def keyword (w : String) : Expectation := ⟨Peek.keyword w, ticked w⟩

/-- Several given words. -/
def keywords (words : List String) : List Expectation := words.map keyword

/-- A symbol. -/
def symbol (s : String) : Expectation := ⟨Peek.symbol s, ticked s⟩

/-- A name. -/
def name : Expectation := ⟨Peek.name, "identifier"⟩

/-- A lifetime. -/
def lifetime : Expectation := ⟨Peek.lifetime, "lifetime"⟩

/-- A literal. -/
def literal : Expectation := ⟨Peek.literal, "literal"⟩

/-- A string literal. -/
def stringLiteral : Expectation := ⟨Peek.stringLiteral, "string literal"⟩

/-- A group with a given delimiter. -/
def group (d : Delimiter) : Expectation := ⟨Peek.group d, d.describe⟩

end Expectation

end ApiDecl.Syntax
