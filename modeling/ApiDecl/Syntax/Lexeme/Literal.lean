import ApiDecl.Syntax.Lexeme.Basic
import ApiDecl.Syntax.StringLiteral

/-!
# Literals

Strings, byte strings, C strings, bytes, characters and numbers. A literal may carry a suffix that
has the form of a word. What the escapes of a quoted literal may be depends on its kind.
-/

namespace ApiDecl.Syntax.Lexeme

open ApiDecl.Text ApiDecl.Syntax.StringLiteral

/-- Continues a piece with what a second reader takes. -/
def andThen (first : Option (List Char × List Char)) (second : Reader) :
    Option (List Char × List Char) :=
  first.bind fun (taken, rest) => (second rest).map fun (more, left) => (taken ++ more, left)

/-- An optional word after a literal. -/
def suffix (cs : List Char) : Option (List Char × List Char) :=
  some ((plainWord cs).getD ([], cs))

/-! ## Quoted literals -/

/-- What a quoted literal may hold. -/
structure QuotedKind where
  /-- Whether a character may stand for itself. -/
  plain : Char → Bool
  /-- Whether the two digits of a hexadecimal escape are allowed. -/
  hex : Char → Char → Bool
  /-- Whether a backslash may precede a zero. -/
  zero : Bool
  /-- Whether code points may be written in braces. -/
  braced : Bool
  /-- Whether a code point may be written in braces. -/
  bracedValue : Nat → Bool

/-- Whether a character is a hexadecimal digit. -/
def isHex (c : Char) : Bool := (hexValue? c).isSome

/-- Whether a character is ASCII. -/
def isAscii (c : Char) : Bool := c.toNat < 0x80

/-- Texts and characters hold any character; a hexadecimal escape is ASCII. -/
def textKind : QuotedKind :=
  ⟨fun _ => true, fun a b => '0' ≤ a && a ≤ '7' && isHex b, true, true, fun _ => true⟩

/-- Bytes are ASCII or any hexadecimal escape. -/
def byteKind : QuotedKind :=
  ⟨isAscii, fun a b => isHex a && isHex b, true, false, fun _ => true⟩

/-- C strings hold anything but NUL. -/
def cKind : QuotedKind :=
  ⟨fun c => c.toNat != 0, fun a b => isHex a && isHex b && !(a == '0' && b == '0'), false, true,
    fun n => n != 0⟩

/-- The digits of a braced escape up to its closing brace: one to six hexadecimal digits, with
underscores after the first, that name a character. -/
def bracedDigits (kind : QuotedKind) : List Char → Reader
  | _, [] => none
  | digits, c :: rest =>
    if isHex c then
      if digits.length = 6 then none else after c (bracedDigits kind (digits ++ [c]) rest)
    else if digits.isEmpty then none
    else if c = '_' then after c (bracedDigits kind digits rest)
    else if c = '}' ∧ (codePoint digits).isValidChar ∧ kind.bracedValue (codePoint digits) then
      some (['}'], rest)
    else none

/-- The part of an escape after its backslash, a line break apart. -/
def escape (kind : QuotedKind) (cs : List Char) : Option (List Char × List Char) :=
  match cs with
  | 'x' :: a :: b :: rest => if kind.hex a b then some (['x', a, b], rest) else none
  | 'u' :: '{' :: rest =>
    if kind.braced then after 'u' (after '{' (bracedDigits kind [] rest)) else none
  | c :: rest =>
    if c ∈ ['n', 'r', 't', '\\', '"', apostrophe] ∨ (c = '0' ∧ kind.zero) then some ([c], rest)
    else none
  | [] => none

/-- The blanks that a line continuation skips: spaces, tabs and line breaks, at least one character
before the end of the text. -/
def continuation : Reader
  | '\r' :: '\n' :: rest => (continuation rest).map fun (taken, left) =>
      ('\r' :: '\n' :: taken, left)
  | '\r' :: _ => none
  | [] => none
  | c :: rest =>
    if c = ' ' ∨ c = '\t' ∨ c = '\n' then after c (continuation rest) else some ([], c :: rest)

/-- The rest of a quoted literal up to its closing double quote. The fuel bounds the number of
characters. -/
def quotedRest (kind : QuotedKind) : Nat → Reader
  | 0, _ => none
  | fuel + 1, cs =>
    match cs with
    | [] => none
    | '"' :: rest => some (['"'], rest)
    | '\r' :: '\n' :: rest =>
      (quotedRest kind fuel rest).map fun (taken, left) => ('\r' :: '\n' :: taken, left)
    | '\r' :: _ => none
    | '\\' :: '\n' :: rest =>
      after '\\' (after '\n' (andThen (continuation rest) (quotedRest kind fuel)))
    | '\\' :: '\r' :: rest =>
      after '\\' (andThen (continuation ('\r' :: rest)) (quotedRest kind fuel))
    | '\\' :: rest => after '\\' (andThen (escape kind rest) (quotedRest kind fuel))
    | c :: rest => if kind.plain c then after c (quotedRest kind fuel rest) else none

/-- A literal between double quotes. -/
def quoted (kind : QuotedKind) (cs : List Char) : Option (List Char × List Char) :=
  match cs with
  | '"' :: rest => after '"' (quotedRest kind (rest.length + 1) rest)
  | _ => none

/-- The rest of a raw literal up to a double quote followed by `hashes`. -/
def rawRest (kind : QuotedKind) (hashes : List Char) : Reader
  | '"' :: rest =>
    match exactly hashes rest with
    | some (taken, left) => some ('"' :: taken, left)
    | none => after '"' (rawRest kind hashes rest)
  | '\r' :: '\n' :: rest =>
    (rawRest kind hashes rest).map fun (taken, left) => ('\r' :: '\n' :: taken, left)
  | '\r' :: _ => none
  | c :: rest => if kind.plain c then after c (rawRest kind hashes rest) else none
  | [] => none

/-- A raw literal after its letters: up to 255 hashes, a double quote, any text, and the same
again. -/
def raw (kind : QuotedKind) (cs : List Char) : Option (List Char × List Char) :=
  let hashes := cs.takeWhile (· == '#')
  match cs.dropWhile (· == '#') with
  | '"' :: rest =>
    if hashes.length ≤ 255 then
      (rawRest kind hashes rest).map fun (taken, left) => (hashes ++ '"' :: taken, left)
    else none
  | _ => none

/-- One character or escape between apostrophes. -/
def single (kind : QuotedKind) (cs : List Char) : Option (List Char × List Char) :=
  match cs with
  | [] => none
  | mark :: rest =>
    if mark = apostrophe then
      let inner := match rest with
        | '\\' :: more => after '\\' (escape kind more)
        | c :: more => if kind.plain c then some ([c], more) else none
        | [] => none
      after mark (andThen inner (exactly [apostrophe]))
    else none

/-- Any quoted, raw or single literal. -/
def quotation (cs : List Char) : Option (List Char × List Char) :=
  match cs with
  | '"' :: _ => quoted textKind cs
  | 'r' :: rest => after 'r' (raw textKind rest)
  | 'b' :: 'r' :: rest => after 'b' (after 'r' (raw byteKind rest))
  | 'b' :: '"' :: rest => after 'b' (quoted byteKind ('"' :: rest))
  | 'b' :: rest => after 'b' (single byteKind rest)
  | 'c' :: 'r' :: rest => after 'c' (after 'r' (raw cKind rest))
  | 'c' :: rest => after 'c' (quoted cKind rest)
  | _ => single textKind cs

/-! ## Numbers -/

/-- Nothing, provided that no word goes on here. -/
def wordBreak (cs : List Char) : Option (List Char × List Char) :=
  match cs with
  | [] => some ([], [])
  | c :: rest => if isWordTail c then none else some ([], c :: rest)

/-- The longest run of characters in a class. -/
def run (p : Char → Bool) (cs : List Char) : List Char × List Char :=
  (cs.takeWhile p, cs.dropWhile p)

/-- Whether a character is a decimal digit or an underscore. -/
def isDigitOrBlank (c : Char) : Bool := c.isDigit || c == '_'

/-- The exponent after its letter: one optional sign, and at least one digit. -/
def exponent (cs : List Char) : Option (List Char × List Char) :=
  let (lead, rest) := run (· == '_') cs
  let (sign, rest) := match rest with
    | '+' :: more => (['+'], more)
    | '-' :: more => (['-'], more)
    | _ => ([], rest)
  let (digits, left) := run isDigitOrBlank rest
  if digits.any Char.isDigit then some (lead ++ sign ++ digits, left) else none

/-- The digits of a number with a fraction or an exponent. -/
def floatDigits (cs : List Char) : Option (List Char × List Char) := do
  guard (cs.head?.any Char.isDigit)
  let (whole, rest) := run isDigitOrBlank cs
  let (fraction, rest) ← match rest with
    | '.' :: more =>
      if more.head?.any fun c => c == '.' || isWordStart c then none
      else let (digits, left) := run isDigitOrBlank more; some ('.' :: digits, left)
    | _ => some ([], rest)
  match rest with
  | e :: more =>
    if e = 'e' ∨ e = 'E' then
      match exponent more with
      | some (power, left) => return (whole ++ fraction ++ e :: power, left)
      | none => if fraction.isEmpty then none else return (whole ++ fraction, rest)
    else if fraction.isEmpty then none else return (whole ++ fraction, rest)
  | [] => if fraction.isEmpty then none else return (whole ++ fraction, rest)

/-- The digits of a whole number in a base; letters beyond the base end it, digits beyond the base
are refused. -/
def baseDigits (base : Nat) (cs : List Char) : Option (List Char × List Char) :=
  let inBase (c : Char) : Bool := c.isDigit || c == '_' || (hexValue? c).any (· < base)
  let (digits, left) := run inBase cs
  if digits.any (fun c => c.isDigit && c.toNat - '0'.toNat ≥ base) then none
  else if digits.all (· == '_') then none
  else if base = 10 ∧ digits.head? = some '_' then none
  else some (digits, left)

/-- A whole number. -/
def wholeDigits (cs : List Char) : Option (List Char × List Char) :=
  match cs with
  | '0' :: 'x' :: rest => after '0' (after 'x' (baseDigits 16 rest))
  | '0' :: 'o' :: rest => after '0' (after 'o' (baseDigits 8 rest))
  | '0' :: 'b' :: rest => after '0' (after 'b' (baseDigits 2 rest))
  | _ => baseDigits 10 cs

/-- A number with its suffix, not followed by more of a word. -/
def number (digits : Option (List Char × List Char)) : Option (List Char × List Char) :=
  andThen (andThen digits suffix) wordBreak

/-- The spelling of a literal that could not be read; it is a literal itself. -/
def unreadable : List Char := "(/*ERROR*/)".toList

/-- A literal with its suffix. -/
def literal (cs : List Char) : Option (List Char × List Char) :=
  match quotation cs with
  | some piece => andThen (some piece) suffix
  | none =>
    match number (floatDigits cs) with
    | some piece => some piece
    | none =>
      match number (wholeDigits cs) with
      | some piece => some piece
      | none => exactly unreadable cs

/-! ## Marks -/

/-- The characters that are punctuation by themselves. -/
def markChars : List Char := "~!@#$%^&*-=+|;:,<.>/?".toList

/-- Whether a text starts with a mark, which the slash of a comment is not. -/
def startsMark (cs : List Char) : Bool :=
  match cs with
  | [] => false
  | c :: _ =>
    (markChars.contains c || c == apostrophe) && !startsWith "//" cs && !startsWith "/*" cs

/-- Whether the apostrophe before this text starts a lifetime: a word follows, and after it neither
another apostrophe nor, without a raw marker, a hash. -/
def startsLifetime (cs : List Char) : Bool :=
  match anyWord cs with
  | some (_, c :: _) => c != apostrophe && (c != '#' || startsWith "r#" cs)
  | some (_, []) => true
  | none => false

/-- A mark, and whether it is glued to what follows: an apostrophe always is, and any other mark if
another mark follows. -/
def mark (cs : List Char) : Option (Char × Bool × List Char) :=
  match cs with
  | [] => none
  | c :: rest =>
    if !startsMark cs then none
    else if c = apostrophe then if startsLifetime rest then some (c, true, rest) else none
    else some (c, startsMark rest, rest)

end ApiDecl.Syntax.Lexeme
