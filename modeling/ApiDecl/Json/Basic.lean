/-!
# JSON values

A JSON value is null, a truth value, a number, a text, a list or an object. The members of an object
are ordered and have different names. A number without a fraction is kept exactly if it fits 64
bits, signed or not; any other number is a binary floating-point number.
-/

namespace ApiDecl

/-- The whole numbers that are kept exactly. -/
def Json.IsWhole (n : Int) : Prop := -0x8000000000000000 ≤ n ∧ n < 0x10000000000000000

instance (n : Int) : Decidable (Json.IsWhole n) := inferInstanceAs (Decidable (_ ∧ _))

/-- A JSON number. -/
inductive Json.Number where
  /-- A whole number that fits 64 bits. -/
  | whole (value : Int) (fits : Json.IsWhole value)
  /-- Any other number, which is finite. -/
  | float (value : Float)

/-- A JSON value. -/
inductive Json where
  /-- The absent value. -/
  | null
  /-- A truth value. -/
  | bool (value : Bool)
  /-- A number. -/
  | number (value : Json.Number)
  /-- A text. -/
  | string (text : String)
  /-- A list. -/
  | array (elements : List Json)
  /-- An object, with its members in order. -/
  | object (members : List (String × Json))

namespace Json

instance : Inhabited Json := ⟨null⟩

/-- An unsigned number of 64 bits. -/
def ofWord (n : UInt64) : Json :=
  number (.whole n.toNat ⟨by have := n.toNat_lt; omega, by have := n.toNat_lt; omega⟩)

/-- An unsigned number of 16 bits. -/
def ofHalfword (n : UInt16) : Json := ofWord n.toUInt64

/-- A list of texts. -/
def strings (texts : List String) : Json := array (texts.map string)

end Json

end ApiDecl
