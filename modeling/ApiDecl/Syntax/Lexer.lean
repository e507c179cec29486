import ApiDecl.Syntax.Lexeme.Literal
import ApiDecl.Syntax.Token

/-!
# From characters to token trees

A source text is read piece by piece: gaps are dropped, a documentation comment becomes the
attribute it stands for, and delimiters nest what lies between them. Reading fails at the first
character that starts no piece, at a closing delimiter that does not match, and, at the end of the
text, at the innermost delimiter that was never closed.
-/

namespace ApiDecl.Syntax

open Lexeme StringLiteral

namespace Lexer

/-- A group whose closing delimiter has not been read yet. -/
structure OpenGroup where
  /-- The delimiter that opened the group. -/
  delimiter : Delimiter
  /-- The position of that delimiter. -/
  opening : Position
  /-- The tokens before the group, in reverse. -/
  before : List Token

/-- The tokens of the attribute that a documentation comment stands for, all of them where the
comment starts. -/
def docTokens (comment : DocComment) (p : Position) : List Token :=
  [.mark '#' false p] ++ (if comment.inner then [.mark '!' false p] else []) ++
    [.group .bracket [.word "doc" p, .mark '=' false p, .literal (spell comment.text) p] p p]

/-- The error for a text that cannot be read on from a position. -/
def failure (p : Position) : SyntaxError := ⟨p, "cannot parse string into token stream"⟩

/-- A literal, a mark or a word, with the characters taken. -/
def leaf (p : Position) (cs : List Char) : Option (Token × List Char × List Char) :=
  match literal cs with
  | some (taken, rest) => some (.literal (String.ofList taken) p, taken, rest)
  | none =>
    match mark cs with
    | some (c, joint, rest) => some (.mark c joint p, [c], rest)
    | none => (word cs).map fun (taken, rest) => (.word (String.ofList taken) p, taken, rest)

/-- The delimiter that a text opens. A literal that could not be read does not open a group. -/
def opening? (cs : List Char) : Option Delimiter :=
  if unreadable.isPrefixOf cs then none else cs.head?.bind Delimiter.ofOpening?

/-- Reads the rest of a text at a position, within open groups and after some tokens, both innermost
first. Every step takes a character, so the fuel bounds the number of characters. -/
def read : Nat → Position → List OpenGroup → List Token → List Char →
    Except SyntaxError (List Token)
  | 0, p, _, _, _ => .error (failure p)
  | fuel + 1, p, opened, done, cs =>
    match cs with
    | [] =>
      match opened with
      | [] => .ok done.reverse
      | g :: _ => .error (failure g.opening)
    | c :: rest =>
      match gap cs with
      | some (taken, left) => read fuel (p.advanceAll taken) opened done left
      | none =>
      match docComment cs with
      | some (comment, left) =>
        read fuel (p.advanceAll comment.taken) opened ((docTokens comment p).reverse ++ done) left
      | none =>
      match opening? cs, Delimiter.ofClosing? c with
      | some d, _ => read fuel (p.advance c) (⟨d, p, done⟩ :: opened) [] rest
      | none, some d =>
        match opened with
        | [] => .error (failure p)
        | g :: outer =>
          if g.delimiter = d then
            read fuel (p.advance c) outer (.group d done.reverse g.opening p :: g.before) rest
          else .error (failure p)
      | none, none =>
        match leaf p cs with
        | some (token, taken, left) => read fuel (p.advanceAll taken) opened (token :: done) left
        | none => .error (failure p)

end Lexer

/-- The byte order mark. -/
def byteOrderMark : Char := Char.ofNat 0xFEFF

/-- The token trees of a text. A byte order mark in front is a column of the first line, but no
token. -/
def tokenize (cs : List Char) : Except SyntaxError (List Token) :=
  match cs with
  | [] => .ok []
  | c :: rest =>
    if c = byteOrderMark then
      Lexer.read (rest.length + 1) (Position.start.advance c) [] [] rest
    else Lexer.read (cs.length + 1) .start [] [] cs

/-- A text without the gaps in front of it. The fuel bounds the number of gaps. -/
def skipGaps : Nat → List Char → List Char
  | 0, cs => cs
  | fuel + 1, cs =>
    match gap cs with
    | some (_, rest) => skipGaps fuel rest
    | none => cs

/-- The part of a file that is tokens: without a byte order mark in front, and without a first line
that names an interpreter. A `#!` line does so unless the next thing after its two marks is a square
bracket. -/
def fileText (content : String) : List Char :=
  let cs := match content.toList with
    | c :: rest => if c = byteOrderMark then rest else c :: rest
    | [] => []
  match cs with
  | '#' :: '!' :: rest =>
    if (skipGaps rest.length rest).head? = some '[' then cs else cs.dropWhile (· != '\n')
  | _ => cs

/-- The token trees of a file. -/
def tokenizeFile (content : String) : Except SyntaxError (List Token) := tokenize (fileText content)

end ApiDecl.Syntax
