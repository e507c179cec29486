import ApiDecl.Text.Quoted

/-!
# String literals

A string literal is written plainly, between double quotes and with escapes, or raw, between `r"`
and `"` with any number of `#` around the quotes. `StringLiteral.value?` reads the text that a
spelling stands for, and `StringLiteral.spell` writes a plain spelling of a text.
-/

namespace ApiDecl.Syntax.StringLiteral

open ApiDecl.Text

/-- The value of a hexadecimal digit. -/
def hexValue? (c : Char) : Option Nat :=
  if '0' ≤ c ∧ c ≤ '9' then some (c.toNat - '0'.toNat)
  else if 'a' ≤ c ∧ c ≤ 'f' then some (c.toNat - 'a'.toNat + 10)
  else if 'A' ≤ c ∧ c ≤ 'F' then some (c.toNat - 'A'.toNat + 10)
  else none

/-- The number written by the digits of a braced escape, whose underscores do not count. -/
def codePoint (digits : List Char) : Nat :=
  (digits.filterMap hexValue?).foldl (16 * · + ·) 0

/-- The characters that are skipped after a backslash that ends a line. -/
def continuationBlanks : List Char := [' ', '\t', '\n', '\r']

/-- What the reader of a plain spelling is in the middle of. -/
inductive Mode where
  /-- Ordinary text. -/
  | text
  /-- The blanks after a backslash that ended a line. -/
  | skipping
  /-- The digits of a braced escape, in reverse. -/
  | braced (digits : List Char)

/-- The text between the quotes of a plain spelling, up to the closing quote. -/
def plainValue? : Mode → List Char → Option (List Char)
  | _, [] => none
  | .braced digits, c :: rest =>
    if c = '}' then (plainValue? .text rest).map (Char.ofNat (codePoint digits.reverse) :: ·)
    else plainValue? (.braced (c :: digits)) rest
  | .skipping, '"' :: _ => some []
  | .text, '"' :: _ => some []
  | .skipping, '\\' :: c :: rest => escaped c rest
  | .text, '\\' :: c :: rest => escaped c rest
  | .text, '\r' :: '\n' :: rest => (plainValue? .text rest).map ('\n' :: ·)
  | .text, c :: rest => (plainValue? .text rest).map (c :: ·)
  | .skipping, c :: rest =>
    if continuationBlanks.contains c then plainValue? .skipping rest
    else (plainValue? .text rest).map (c :: ·)
where
  /-- The text from an escape on, after its backslash. -/
  escaped (c : Char) (rest : List Char) : Option (List Char) :=
    match c, rest with
    | 'n', rest => (plainValue? .text rest).map ('\n' :: ·)
    | 'r', rest => (plainValue? .text rest).map ('\r' :: ·)
    | 't', rest => (plainValue? .text rest).map ('\t' :: ·)
    | '0', rest => (plainValue? .text rest).map (Char.ofNat 0 :: ·)
    | 'x', high :: low :: rest =>
      (plainValue? .text rest).map (Char.ofNat (codePoint [high, low]) :: ·)
    | 'u', '{' :: rest => plainValue? (.braced []) rest
    | '\n', rest => plainValue? .skipping rest
    | '\r', rest => plainValue? .skipping rest
    | c, rest => (plainValue? .text rest).map (c :: ·)

/-- The text of a raw spelling after its `r`: what stands between its quotes. -/
def rawValue? (cs : List Char) : Option (List Char) :=
  match cs.dropWhile (· == '#') with
  | '"' :: rest => some ((rest.reverse.dropWhile (· != '"')).drop 1).reverse
  | _ => none

/-- The text that the spelling of a string literal stands for; anything after the closing quote is
ignored, and a spelling of another kind of literal has no text. -/
def value? (spelling : String) : Option String :=
  match spelling.toList with
  | '"' :: rest => (plainValue? .text rest).map String.ofList
  | 'r' :: rest => (rawValue? rest).map String.ofList
  | _ => none

/-- Whether a text starts with an octal digit. -/
def startsOctal : List Char → Bool
  | c :: _ => '0' ≤ c && c ≤ '7'
  | [] => false

/-- The characters between the quotes of a plain spelling of a text. A NUL before an octal digit
takes the escape that has a fixed number of digits. -/
def spellChars : List Char → List Char
  | [] => []
  | c :: rest =>
    (if c = Char.ofNat 0 ∧ startsOctal rest then ['\\', 'x', '0', '0'] else escapeChar false c) ++
      spellChars rest

/-- A plain spelling of a text. -/
def spell (cs : List Char) : String := String.ofList ('"' :: spellChars cs ++ ['"'])

end ApiDecl.Syntax.StringLiteral
