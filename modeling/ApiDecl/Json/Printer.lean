import ApiDecl.Decimal.Shortest
import ApiDecl.Json.Basic

/-!
# Writing JSON

A value is written on one line without blanks, or over several lines with two blanks for each level
of nesting. In texts only the quote, the backslash and the control characters below the blank are
escaped.
-/

namespace ApiDecl.Json

/-! ## Numbers -/

/-- How many digits may stand in front of the decimal point. -/
def maxWholeDigits : Int := 16

/-- How many zeros may stand right behind the decimal point. -/
def maxLeadingZeros : Int := 4

/-- Decimal digits with a point behind the first of them, if there are more. -/
def pointAfterFirst : List Char → List Char
  | [] => []
  | [d] => [d]
  | d :: rest => d :: '.' :: rest

/-- An exponent, always with its sign. -/
def exponentText (e : Int) : List Char :=
  'e' :: (if e < 0 then [] else ['+']) ++ (toString e).toList

/-- A positive decimal: with a point if neither too large nor too small, else with an exponent. -/
def scientificText (s : Decimal.Scientific) : List Char :=
  let digits := (toString s.digits).toList
  let point : Int := digits.length + s.exponent
  if 0 ≤ s.exponent ∧ point ≤ maxWholeDigits then
    digits ++ List.replicate s.exponent.toNat '0' ++ ['.', '0']
  else if 0 < point ∧ point ≤ maxWholeDigits then
    digits.take point.toNat ++ '.' :: digits.drop point.toNat
  else if -maxLeadingZeros ≤ point ∧ point ≤ 0 then
    '0' :: '.' :: List.replicate (-point).toNat '0' ++ digits
  else
    pointAfterFirst digits ++ exponentText (point - 1)

/-- A finite float: the shortest decimal that rounds to it. -/
def floatText (f : Float) : List Char :=
  let bits := f.toBits
  let magnitude := bits % 0x8000000000000000
  let sign := if bits = magnitude then [] else ['-']
  sign ++ if magnitude = 0 then ['0', '.', '0']
    else scientificText (Decimal.Binary.ofBits magnitude).shortest

/-- A number. -/
def Number.text : Number → List Char
  | whole n _ => (toString n).toList
  | float f => floatText f

/-! ## Texts -/

/-- A digit of a hexadecimal number, in small letters. -/
def hexDigit (n : Nat) : Char := Nat.digitChar n

/-- One character inside a text. -/
def escapeChar (c : Char) : List Char :=
  if c = '"' then ['\\', '"']
  else if c = '\\' then ['\\', '\\']
  else if c = Char.ofNat 8 then ['\\', 'b']
  else if c = Char.ofNat 12 then ['\\', 'f']
  else if c = '\n' then ['\\', 'n']
  else if c = '\r' then ['\\', 'r']
  else if c = '\t' then ['\\', 't']
  else if c.toNat < 32 then ['\\', 'u', '0', '0', hexDigit (c.toNat / 16), hexDigit (c.toNat % 16)]
  else [c]

/-- A text between quotes. -/
def quote (s : String) : List Char := '"' :: s.toList.flatMap escapeChar ++ ['"']

/-! ## Values -/

/-- How the parts of lists and objects are set apart. -/
inductive Layout where
  /-- All on one line. -/
  | compact
  /-- Each part on a line of its own, at some level of nesting. -/
  | indented (level : Nat)
  deriving Repr, DecidableEq, Inhabited

namespace Layout

/-- The layout inside the parts. -/
def deeper : Layout → Layout
  | compact => compact
  | indented level => indented (level + 1)

/-- What stands before a part and before the end of the last one. -/
def lineBreak : Layout → List Char
  | compact => []
  | indented level => '\n' :: List.replicate (2 * level) ' '

/-- What stands between the name and the value of a member. -/
def colon : Layout → List Char
  | compact => [':']
  | indented _ => [':', ' ']

end Layout

mutual

/-- A value in a layout. -/
def render (layout : Layout) : Json → List Char
  | null => "null".toList
  | bool true => "true".toList
  | bool false => "false".toList
  | number n => n.text
  | string s => quote s
  | array [] => ['[', ']']
  | array (e :: rest) =>
    '[' :: layout.deeper.lineBreak ++ render layout.deeper e ++
      renderElements layout.deeper rest ++ layout.lineBreak ++ [']']
  | object [] => ['{', '}']
  | object ((name, value) :: rest) =>
    '{' :: layout.deeper.lineBreak ++ quote name ++ layout.colon ++ render layout.deeper value ++
      renderMembers layout.deeper rest ++ layout.lineBreak ++ ['}']

/-- The elements of a list after the first one. -/
def renderElements (layout : Layout) : List Json → List Char
  | [] => []
  | e :: rest => ',' :: layout.lineBreak ++ render layout e ++ renderElements layout rest

/-- The members of an object after the first one. -/
def renderMembers (layout : Layout) : List (String × Json) → List Char
  | [] => []
  | (name, value) :: rest =>
    ',' :: layout.lineBreak ++ quote name ++ layout.colon ++ render layout value ++
      renderMembers layout rest

end

/-- A value on one line. -/
def compactText (j : Json) : String := String.ofList (render .compact j)

/-- A value over several lines. -/
def indentedText (j : Json) : String := String.ofList (render (.indented 0) j)

end ApiDecl.Json
