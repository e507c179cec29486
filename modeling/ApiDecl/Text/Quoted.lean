import ApiDecl.Text.Printable

/-!
# Quoted text

A quoted text stands between double quotes. Inside, a backslash introduces the quote itself, the
backslash, tab, line feed, carriage return and NUL; a character that cannot be shown is written as
its code point in hexadecimal, as in `\u{301}`.
-/

namespace ApiDecl.Text

/-- The apostrophe. -/
def apostrophe : Char := Char.ofNat 0x27

/-- How a quoted text writes one character; `escapeApostrophe` says whether an apostrophe takes a
backslash too. -/
def escapeChar (escapeApostrophe : Bool) (c : Char) : List Char :=
  if c = Char.ofNat 0 then ['\\', '0']
  else if c = '\t' then ['\\', 't']
  else if c = '\r' then ['\\', 'r']
  else if c = '\n' then ['\\', 'n']
  else if c = '\\' then ['\\', '\\']
  else if c = '"' then ['\\', '"']
  else if c = apostrophe then if escapeApostrophe then ['\\', apostrophe] else [apostrophe]
  else if isPrintable c then [c]
  else ['\\', 'u', '{'] ++ Nat.toDigits 16 c.toNat ++ ['}']

/-- A text between double quotes. -/
def quote (escapeApostrophe : Bool) (s : String) : String :=
  String.ofList ('"' :: s.toList.flatMap (escapeChar escapeApostrophe) ++ ['"'])

end ApiDecl.Text
