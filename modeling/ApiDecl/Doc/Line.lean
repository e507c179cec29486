import ApiDecl.Syntax.Tree
import ApiDecl.Text.Blank

/-!
# Lines of documentation

The documentation of a declaration is the text of its `doc` attributes, line by line. A line knows
where in its file its first visible character stands.
-/

namespace ApiDecl

open Syntax

/-- A line of documentation. -/
structure DocLine where
  /-- The line without the blanks around it. -/
  text : String
  /-- Where its text starts. -/
  location : Location
  deriving Repr, DecidableEq, Inhabited

/-- The width of the mark in front of the first line of a comment. -/
def docMarkWidth : Nat := 3

/-- The lines of one attribute's text, which starts right after the mark of its comment. Lines after
the first start at the left margin. -/
def docLinesOf (file : String) (start : Position) (text : String) : List DocLine :=
  (Text.splitWhere (· == '\n') text.toList).zipIdx.map fun (raw, offset) =>
    let indent := (raw.takeWhile Text.isBlank).length
    let column := if offset = 0 then start.column + docMarkWidth + indent else indent + 1
    ⟨Text.trim (String.ofList raw), ⟨file, ⟨start.line + offset, column⟩⟩⟩

/-- The documentation lines of a declaration, in order. -/
def docLines (file : String) (attributes : List Attribute) : List DocLine :=
  attributes.flatMap fun a =>
    match a.content with
    | .value (some text) => if a.path.isName "doc" then docLinesOf file a.position text else []
    | _ => []

/-- The documentation as one text, without blank lines at its start and end. -/
def docText (lines : List DocLine) : String :=
  let blank (line : DocLine) : Bool := line.text.isEmpty
  let kept := ((lines.dropWhile blank).reverse.dropWhile blank).reverse
  "\n".intercalate (kept.map (·.text))

end ApiDecl
