/-!
# Shortest decimals

A binary floating-point number stands for an interval of reals: all that round to it. `shortest` is
the decimal with the fewest digits in that interval, and of those with equally many digits the
nearest to the number itself.

Everything is measured in quarters of the last binary place, so that both ends of the interval are
whole. Decimal grids are tried from coarse to fine. If a point of a grid lies in the interval then
so does one of the two neighbours of the number on that grid, so no other point is looked at.
-/

namespace ApiDecl.Decimal

/-- The decimal number `digits * 10 ^ exponent`. -/
structure Scientific where
  /-- The digits, as one whole number. -/
  digits : Nat
  /-- The place of the last digit. -/
  exponent : Int
  deriving Repr, DecidableEq, Inhabited

/-- The positive binary number `mantissa * 2 ^ exponent` among its neighbours. -/
structure Binary where
  /-- The digits of the number. -/
  mantissa : Nat
  /-- The place of its last digit. -/
  exponent : Int
  /-- Whether the neighbour below is only half as far away as the one above. -/
  closeBelow : Bool
  deriving Repr, DecidableEq, Inhabited

namespace Binary

/-- A count of quarters of the last place, times `10 ^ -grid` where that is whole and at least one,
times the power of two that makes it comparable to `gridPoint`. -/
def scaled (b : Binary) (grid : Int) (quarters : Nat) : Nat :=
  quarters * Nat.pow 2 (b.exponent - 2).toNat * Nat.pow 10 (-grid).toNat

/-- A point of the grid of multiples of `10 ^ grid`, comparable to `scaled`. -/
def gridPoint (b : Binary) (grid : Int) (digits : Nat) : Nat :=
  digits * Nat.pow 10 grid.toNat * Nat.pow 2 (2 - b.exponent).toNat

/-- Whether a point of a grid rounds to the number. The ends of the interval do if the mantissa is
even. -/
def holds (b : Binary) (grid : Int) (digits : Nat) : Bool :=
  let low := b.scaled grid (4 * b.mantissa - if b.closeBelow then 1 else 2)
  let high := b.scaled grid (4 * b.mantissa + 2)
  let point := b.gridPoint grid digits
  if b.mantissa % 2 = 0 then low ≤ point && point ≤ high else low < point && point < high

/-- The nearest point of a grid that rounds to the number; of two equally near points the even
one. -/
def nearest? (b : Binary) (grid : Int) : Option Nat :=
  let value := b.scaled grid (4 * b.mantissa)
  let below := value / b.gridPoint grid 1
  let above := below + 1
  let distanceBelow := value - b.gridPoint grid below
  let distanceAbove := b.gridPoint grid above - value
  match b.holds grid below, b.holds grid above with
  | false, false => none
  | true, false => some below
  | false, true => some above
  | true, true =>
    if distanceBelow < distanceAbove then some below
    else if distanceAbove < distanceBelow then some above
    else if below % 2 = 0 then some below
    else some above

/-- The coarsest of some grids that has a point for the number. -/
def onGrids (b : Binary) (grid : Int) : Nat → Scientific
  | 0 => ⟨b.mantissa, 0⟩
  | count + 1 =>
    match b.nearest? grid with
    | some digits => ⟨digits, grid⟩
    | none => b.onGrids (grid - 1) count

/-- A grid that is as coarse as the number is large, or at most ten times coarser: the number has
about 0.30103 decimal digits for a binary one. -/
def coarsestGrid (b : Binary) : Int :=
  ((b.mantissa.log2 : Int) + 1 + b.exponent) * 30103 / 100000 + 1

/-- The decimal with the fewest digits that rounds to the number. Seventeen digits tell all numbers
apart. -/
def shortest (b : Binary) : Scientific := b.onGrids b.coarsestGrid 20

end Binary

/-- The first number with fifty-three binary digits. -/
def leadingOne : Nat := 0x10000000000000

/-- The binary number with the bits of a positive finite float: eleven bits of exponent and
fifty-two of mantissa, with a leading one that is not stored unless the exponent is zero. -/
def Binary.ofBits (bits : UInt64) : Binary :=
  let fraction : Nat := bits.toNat % leadingOne
  let biased : Nat := bits.toNat / leadingOne % 0x800
  if biased = 0 then ⟨fraction, -1074, false⟩
  else ⟨leadingOne + fraction, biased - 1075, fraction = 0 && 1 < biased⟩

end ApiDecl.Decimal
