import ApiDecl.Text.Case

/-!
# Snake case

A name in capitalised words is written in small letters with underscores between the words. A word
starts at a capital that follows a small letter or a digit, or that ends a run of capitals and is
followed by a small letter, so that acronyms stay together.
-/

namespace ApiDecl.Text

/-- Whether a word starts at a character, from the characters before and after it. -/
def startsWord (before : Option Char) (c : Char) (after : Option Char) : Bool :=
  match before with
  | none => false
  | some b =>
    isUpper c && (isLower b || b.isDigit || (isUpper b && after.any isLower))

/-- The rest of a name in snake case, behind a character. -/
def snakeFrom (before : Option Char) : List Char → List Char
  | [] => []
  | c :: rest =>
    (if startsWord before c rest.head? then ['_'] else []) ++ toLower c ++ snakeFrom (some c) rest

/-- A name in snake case. -/
def snakeCase (name : String) : String := String.ofList (snakeFrom none name.toList)

end ApiDecl.Text
