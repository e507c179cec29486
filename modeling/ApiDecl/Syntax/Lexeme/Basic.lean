import ApiDecl.Text.Blank
import ApiDecl.Text.Quoted

/-!
# Lexemes

The smallest pieces of a source text: gaps (blanks and plain comments), documentation comments,
words, literals and marks. Each reader takes one piece off the front of a text and answers with the
characters taken and the characters left, or with nothing if the text does not start with such a
piece.
-/

namespace ApiDecl.Syntax.Lexeme

open ApiDecl.Text

/-- A reader takes one piece off the front of a text. -/
abbrev Reader := List Char → Option (List Char × List Char)

/-- Puts a character back in front of the piece that was read after it. -/
def after (c : Char) (read : Option (List Char × List Char)) : Option (List Char × List Char) :=
  read.map fun (taken, rest) => (c :: taken, rest)

/-- Reads exactly the given characters. -/
def exactly : List Char → Reader
  | [], cs => some ([], cs)
  | _, [] => none
  | w :: ws, c :: cs => if w = c then after c (exactly ws cs) else none

/-- Whether a text starts with the given characters. -/
def startsWith (word : String) (cs : List Char) : Bool := word.toList.isPrefixOf cs

/-! ## Gaps and comments -/

/-- Whether a character separates tokens: the blanks and the two direction marks. -/
def isGap (c : Char) : Bool := isBlank c || c.toNat == 0x200E || c.toNat == 0x200F

/-- The rest of a line, without the line break, which may be a carriage return and a line feed. -/
def lineRest : List Char → List Char × List Char
  | [] => ([], [])
  | '\n' :: rest => ([], '\n' :: rest)
  | '\r' :: '\n' :: rest => ([], '\r' :: '\n' :: rest)
  | c :: rest => let (taken, left) := lineRest rest; (c :: taken, left)

/-- A block comment of which `depth` openings are still open, up to the closing of the outermost. -/
def blockRest (depth : Nat) : Reader
  | '/' :: '*' :: rest =>
    (blockRest (depth + 1) rest).map fun (taken, left) => ('/' :: '*' :: taken, left)
  | '*' :: '/' :: rest =>
    match depth with
    | 0 => none
    | 1 => some (['*', '/'], rest)
    | depth + 2 => (blockRest (depth + 1) rest).map fun (taken, left) => ('*' :: '/' :: taken, left)
  | c :: rest => after c (blockRest depth rest)
  | [] => none

/-- A block comment with the comments nested in it. -/
def blockComment (cs : List Char) : Option (List Char × List Char) :=
  if startsWith "/*" cs then blockRest 0 cs else none

/-- Whether a comment that starts here is documentation: `///` but not `////`, `//!`, `/**` but
neither `/***` nor `/**/`, and `/*!`. -/
def startsDoc (cs : List Char) : Bool :=
  (startsWith "///" cs && !startsWith "////" cs) || startsWith "//!" cs || startsWith "/*!" cs ||
  (startsWith "/**" cs && !startsWith "/***" cs && !startsWith "/**/" cs)

/-- A blank character or a comment that is not documentation. -/
def gap (cs : List Char) : Option (List Char × List Char) :=
  match cs with
  | [] => none
  | c :: rest =>
    if isGap c then some ([c], rest)
    else if startsDoc cs then none
    else if startsWith "//" cs then some (lineRest cs)
    else blockComment cs

/-- A documentation comment. -/
structure DocComment where
  /-- Whether it documents the enclosing item rather than the next one. -/
  inner : Bool
  /-- The text between the comment's markers. -/
  text : List Char
  /-- All characters of the comment. -/
  taken : List Char

/-- Whether every carriage return of a text is followed by a line feed. -/
def hasLineBreaksOnly : List Char → Bool
  | '\r' :: '\n' :: rest => hasLineBreaksOnly rest
  | '\r' :: _ => false
  | _ :: rest => hasLineBreaksOnly rest
  | [] => true

/-- A documentation comment, without bare carriage returns in its text. -/
def docComment (cs : List Char) : Option (DocComment × List Char) := do
  guard (startsDoc cs)
  let block := startsWith "/*" cs
  let (taken, rest) ← if block then blockComment cs else some (lineRest cs)
  let text := if block then (taken.drop 3).take (taken.length - 5) else taken.drop 3
  guard (hasLineBreaksOnly text)
  return (⟨startsWith "//!" cs || startsWith "/*!" cs, text, taken⟩, rest)

/-! ## Words -/

/-- The longest run of characters that may continue a word. -/
def wordTail : List Char → List Char × List Char
  | [] => ([], [])
  | c :: rest =>
    if isWordTail c then let (taken, left) := wordTail rest; (c :: taken, left) else ([], c :: rest)

/-- A word without a raw marker. -/
def plainWord : Reader
  | [] => none
  | c :: rest =>
    if isWordStart c then let (taken, left) := wordTail rest; some (c :: taken, left) else none

/-- The words that may not be marked raw. -/
def unmarkable : List String := ["_", "super", "self", "Self", "crate"]

/-- A word, with its raw marker if it has one. -/
def anyWord (cs : List Char) : Option (List Char × List Char) :=
  match cs with
  | 'r' :: '#' :: rest => do
    let (taken, left) ← plainWord rest
    guard (!unmarkable.contains (String.ofList taken))
    return ('r' :: '#' :: taken, left)
  | _ => plainWord cs

/-- The beginnings that belong to a literal, even to a broken one. -/
def literalBeginnings : List (List Char) :=
  ["r\"", "r#\"", "r##", "b\"", "br\"", "br#", "c\"", "cr\"", "cr#"].map String.toList ++
    [['b', apostrophe]]

/-- A word that is not the beginning of a literal. -/
def word (cs : List Char) : Option (List Char × List Char) :=
  if literalBeginnings.any (·.isPrefixOf cs) then none else anyWord cs

end ApiDecl.Syntax.Lexeme
