import ApiDecl.Source.Position

/-!
# Token trees

A source text is a sequence of words, punctuation marks and literals, nested in groups between
matching delimiters. `Token.render` writes a sequence back as one line: tokens are separated by one
space, except after a mark that is glued to what follows it, round and square groups have no inner
padding, and braces are padded.
-/

namespace ApiDecl.Syntax

/-- The three kinds of brackets that form a group. -/
inductive Delimiter where
  /-- Round brackets. -/
  | paren
  /-- Square brackets. -/
  | bracket
  /-- Curly braces. -/
  | brace
  deriving Repr, DecidableEq, Inhabited

namespace Delimiter

/-- The delimiter that a character opens. -/
def ofOpening? : Char → Option Delimiter
  | '(' => some paren
  | '[' => some bracket
  | '{' => some brace
  | _ => none

/-- The delimiter that a character closes. -/
def ofClosing? : Char → Option Delimiter
  | ')' => some paren
  | ']' => some bracket
  | '}' => some brace
  | _ => none

/-- How a message refers to a group with this delimiter. -/
def describe : Delimiter → String
  | paren => "parentheses"
  | bracket => "square brackets"
  | brace => "curly braces"

/-- The closing character. -/
def closing : Delimiter → String
  | paren => ")"
  | bracket => "]"
  | brace => "\x7d"

/-- A group with this delimiter around a text. -/
def enclose (d : Delimiter) (inner : String) : String :=
  match d with
  | paren => "(" ++ inner ++ ")"
  | bracket => "[" ++ inner ++ "]"
  | brace => if inner.isEmpty then "\x7b \x7d" else "\x7b " ++ inner ++ " \x7d"

end Delimiter

/-- A token, or a group of tokens. -/
inductive Token where
  /-- An identifier, keyword or underscore; a raw identifier keeps its `r#`. -/
  | word (text : String) (position : Position)
  /-- One punctuation character, and whether it is glued to the next token. -/
  | mark (char : Char) (joint : Bool) (position : Position)
  /-- A number, character or string, spelled as in the source. -/
  | literal (text : String) (position : Position)
  /-- A delimited sequence, with the positions of its two delimiters. -/
  | group (delimiter : Delimiter) (content : List Token) (opening closing : Position)
  deriving Repr, Inhabited

namespace Token

/-- Where a token starts. -/
def position : Token → Position
  | word _ p | mark _ _ p | literal _ p | group _ _ p _ => p

/-- Whether a token is a mark glued to the next one. -/
def isJoint : Token → Bool
  | mark _ joint _ => joint
  | _ => false

mutual

/-- A token on one line. -/
def text : Token → String
  | word s _ | literal s _ => s
  | mark c _ _ => c.toString
  | group d content _ _ => d.enclose (render content)

/-- A sequence of tokens on one line. -/
def render : List Token → String
  | [] => ""
  | [t] => t.text
  | t :: u :: rest => t.text ++ (if t.isJoint then "" else " ") ++ render (u :: rest)

end

mutual

/-- The number of tokens in a tree, the group itself included. -/
def size : Token → Nat
  | word .. | mark .. | literal .. => 1
  | group _ content _ _ => 1 + sizeAll content

/-- The number of tokens in a sequence of trees. -/
def sizeAll : List Token → Nat
  | [] => 0
  | t :: rest => t.size + sizeAll rest

end

end Token

end ApiDecl.Syntax
