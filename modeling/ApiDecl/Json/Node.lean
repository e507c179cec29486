import ApiDecl.Json.Basic
import ApiDecl.Keyed

/-!
# JSON as it is written

A reader first finds the structure of a JSON text: its nodes, with numbers and texts as they are
spelled. What a spelling means is asked only of the nodes that are used: a number may be too large
(`NumberSpelling.value?`), a text may hold half of a surrogate pair (`textOf?`), and nodes may be
nested too deeply (`Node.value?`).
-/

namespace ApiDecl.Json

/-! ## Texts -/

/-- A part of a written text. -/
inductive TextUnit where
  /-- A character, as itself or by its short escape. -/
  | char (c : Char)
  /-- A UTF-16 unit, by its number. -/
  | code (unit : Nat)
  deriving Repr, DecidableEq, Inhabited

/-- Whether a UTF-16 unit is the first half of a pair. -/
def isHighSurrogate (unit : Nat) : Bool := 0xD800 ≤ unit && unit < 0xDC00

/-- Whether a UTF-16 unit is the second half of a pair. -/
def isLowSurrogate (unit : Nat) : Bool := 0xDC00 ≤ unit && unit < 0xE000

/-- The character of a pair of UTF-16 units. -/
def pairedChar (high low : Nat) : Char :=
  Char.ofNat (0x10000 + (high - 0xD800) * 0x400 + (low - 0xDC00))

/-- The characters of a written text. The halves of a pair must stand together. -/
def charsOf? : List TextUnit → Option (List Char)
  | [] => some []
  | .char c :: rest => (charsOf? rest).map (c :: ·)
  | .code high :: .code low :: rest =>
    if isHighSurrogate high then
      if isLowSurrogate low then (charsOf? rest).map (pairedChar high low :: ·) else none
    else if isLowSurrogate high then none
    else (charsOf? (.code low :: rest)).map (Char.ofNat high :: ·)
  | .code unit :: rest =>
    if isHighSurrogate unit || isLowSurrogate unit then none
    else (charsOf? rest).map (Char.ofNat unit :: ·)

/-- The text that is written. -/
def textOf? (units : List TextUnit) : Option String := (charsOf? units).map String.ofList

/-! ## Numbers -/

/-- A written number. -/
structure NumberSpelling where
  /-- Whether it has a minus sign. -/
  negative : Bool
  /-- The digits in front of the point. -/
  whole : List Char
  /-- The digits behind the point, if there is one. -/
  fraction : Option (List Char)
  /-- Whether the exponent has a minus sign, and its digits, if there is one. -/
  exponent : Option (Bool × List Char)
  deriving Repr, DecidableEq, Inhabited

/-- The value of decimal digits. -/
def digitsValue (digits : List Char) : Nat :=
  digits.foldl (fun n c => 10 * n + (c.toNat - '0'.toNat)) 0

/-- The first number that does not fit an unsigned word. -/
def wordLimit : Nat := 0x10000000000000000

/-- Appends digits to a significand as long as the result fits a word, and gives the digits that are
left. -/
def takeSignificand (significand : Nat) : List Char → Nat × List Char
  | [] => (significand, [])
  | c :: rest =>
    let next := 10 * significand + (c.toNat - '0'.toNat)
    if next < wordLimit then takeSignificand next rest else (significand, c :: rest)

/-- The largest power of ten that is a float. -/
def maxPower : Nat := 308

/-- A power of ten. -/
def powerOfTen (n : Nat) : Float := Float.ofScientific 1 false n

/-- Divides a float by a power of ten, in steps that are floats themselves. Zero stays zero, and
after three steps nothing else is left. -/
def divideByPower (f : Float) (power : Nat) : Nat → Float
  | 0 => 0
  | steps + 1 =>
    if power ≤ maxPower then f / powerOfTen power
    else divideByPower (f / powerOfTen maxPower) (power - maxPower) steps

/-- A significand times a power of ten, unless that is too large. -/
def scaledFloat? (significand : Nat) (exponent : Int) : Option Float :=
  let f := significand.toUInt64.toFloat
  if exponent < 0 then some (divideByPower f exponent.natAbs 4)
  else if exponent.natAbs ≤ maxPower then
    (some (f * powerOfTen exponent.natAbs)).filter fun product => !product.isInf
  else if significand = 0 then some f
  else none

namespace NumberSpelling

/-- The exponent that is written, zero if there is none. -/
def exponentValue (n : NumberSpelling) : Int :=
  match n.exponent with
  | none => 0
  | some (negative, digits) => if negative then -(digitsValue digits) else digitsValue digits

/-- The value of a number with a point or an exponent, or with too many digits for a word. Digits
count as long as the significand fits a word; digits in front of the point that do not count raise
the exponent. -/
def float? (n : NumberSpelling) : Option Float := do
  let (head, dropped) := takeSignificand 0 n.whole
  let fraction := n.fraction.getD []
  let (significand, unused) := takeSignificand head fraction
  let places : Int := (fraction.length : Int) - unused.length
  let f ← scaledFloat? significand (n.exponentValue + dropped.length - places)
  return if n.negative then -f else f

/-- The value of a number, unless it is too large. A minus sign in front of zero makes it a
float. -/
def value? (n : NumberSpelling) : Option Number :=
  let magnitude := digitsValue n.whole
  let value : Int := if n.negative then -magnitude else magnitude
  if h : n.fraction = none ∧ n.exponent = none ∧ IsWhole value ∧ (n.negative → magnitude ≠ 0) then
    some (.whole value h.2.2.1)
  else (n.float?).map .float

end NumberSpelling

/-! ## Nodes -/

/-- A written value. -/
inductive Node where
  /-- The absent value. -/
  | null
  /-- A truth value. -/
  | bool (value : Bool)
  /-- A number. -/
  | number (spelling : NumberSpelling)
  /-- A text. -/
  | string (units : List TextUnit)
  /-- A list. -/
  | array (elements : List Node)
  /-- An object, with its members in order. -/
  | object (members : List (List TextUnit × Node))

instance : Inhabited Node := ⟨.null⟩

/-- How many lists and objects may be nested. -/
def maxLevels : Nat := 127

mutual

/-- The value of a node that may have a given number of levels. The members of objects are put in
the order of their names, and of several with one name the last one counts. -/
def Node.value? (levels : Nat) : Node → Option Json
  | .null => some .null
  | .bool b => some (.bool b)
  | .number n => n.value?.map .number
  | .string units => (textOf? units).map .string
  | .array elements =>
    match levels with
    | 0 => none
    | inner + 1 => (elementValues? inner elements).map .array
  | .object members =>
    match levels with
    | 0 => none
    | inner + 1 => (memberValues? inner members []).map .object

/-- The values of the elements of a list. -/
def elementValues? (levels : Nat) : List Node → Option (List Json)
  | [] => some []
  | e :: rest => do return (← e.value? levels) :: (← elementValues? levels rest)

/-- Some members with the values of the members of an object added. -/
def memberValues? (levels : Nat) :
    List (List TextUnit × Node) → List (String × Json) → Option (List (String × Json))
  | [], found => some found
  | (name, node) :: rest, found => do
    memberValues? levels rest (putSorted (·.1) (← textOf? name, ← node.value? levels) found)

end

end ApiDecl.Json
