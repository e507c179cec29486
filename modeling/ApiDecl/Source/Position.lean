/-!
# Positions in a source text

A position names a line and a column, both counted from one and the column in characters. Reading a
character moves one column on; reading a line feed moves to the start of the next line.
-/

namespace ApiDecl

/-- A place in a source text. -/
structure Position where
  /-- The line, counted from one. -/
  line : Nat
  /-- The column, counted from one in characters. -/
  column : Nat
  deriving Repr, DecidableEq, Inhabited

namespace Position

/-- The first character of a text. -/
def start : Position := ⟨1, 1⟩

/-- The position after reading one character. -/
def advance (p : Position) (c : Char) : Position :=
  if c = '\n' then ⟨p.line + 1, 1⟩ else ⟨p.line, p.column + 1⟩

/-- The position after reading some characters. -/
def advanceAll (p : Position) (cs : List Char) : Position := cs.foldl advance p

/-- Reading two texts in turn is reading them as one. -/
theorem advanceAll_append (p : Position) (as bs : List Char) :
    p.advanceAll (as ++ bs) = (p.advanceAll as).advanceAll bs := by
  simp [advanceAll]

/-- A position as `line:column`. -/
def toText (p : Position) : String := s!"{p.line}:{p.column}"

end Position

/-- A position in a named file. -/
structure Location where
  /-- The path of the file, as it was given. -/
  file : String
  /-- The position in that file. -/
  position : Position
  deriving Repr, DecidableEq, Inhabited

/-- A location as `file:line:column`. -/
def Location.toText (l : Location) : String := s!"{l.file}:{l.position.toText}"

/-- A message about a source text, and where it applies. -/
structure SyntaxError where
  /-- The place that the message is about. -/
  position : Position
  /-- What is wrong there. -/
  message : String
  deriving Repr, DecidableEq, Inhabited

end ApiDecl
