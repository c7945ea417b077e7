/-!
# Shortest decimals of floats

A float stands for all reals that round to it. Among the decimals in that
interval the ones with the fewest digits are selected, of these the one nearest
to the float, and of two equally near ones the larger (`Binary.shortest`).

The search is exact: a float is a whole number of units of a power of two, and
both ends of its interval are compared with decimals by multiplying out. Grids
of powers of ten are tried from coarse to fine; if any point of a grid lies in
the interval, so does one of the two points next to the float.
-/

set_option autoImplicit false

namespace MoveMachine.Decimal

/-- The magnitude of a finite float, `significand * 2 ^ exponent`. -/
structure Binary where
  significand : Nat
  exponent : Int
  /-- Whether the next smaller float is only half as far away as the next larger one. -/
  narrowBelow : Bool
deriving DecidableEq

/-- A decimal, `digits * 10 ^ exponent`. -/
structure Scaled where
  digits : Nat
  exponent : Int
deriving DecidableEq

namespace Binary

/-- The magnitude in the bits of a finite float of 64 bits. -/
def ofBits (bits : UInt64) : Binary :=
  let biased : Nat := (bits.toNat / Nat.pow 2 52) % Nat.pow 2 11
  let fraction : Nat := bits.toNat % Nat.pow 2 52
  if biased = 0 then ⟨fraction, -1074, false⟩
  else ⟨Nat.pow 2 52 + fraction, (biased : Int) - 1075, fraction = 0 && biased > 1⟩

/-- The number of decimal units `10 ^ grid` against which `multiple` quarters of `2 ^ exponent` are
measured: `multiple * 2 ^ (exponent - 2) = fst / snd * 10 ^ grid`. -/
def onGrid (float : Binary) (grid : Int) (multiple : Nat) : Nat × Nat :=
  let quarter := float.exponent - 2
  (multiple * Nat.pow 2 quarter.toNat * Nat.pow 10 (-grid).toNat,
    Nat.pow 2 (-quarter).toNat * Nat.pow 10 grid.toNat)

/-- Whether `digits * 10 ^ grid` rounds to the float: it lies between the midpoints to the two
neighbouring floats, or on one of them if the significand is even. -/
def admits (float : Binary) (grid : Int) (digits : Nat) : Bool :=
  let middle := 4 * float.significand
  let lower := float.onGrid grid (if float.narrowBelow then middle - 1 else middle - 2)
  let upper := float.onGrid grid (middle + 2)
  let position := digits * upper.2
  if float.significand % 2 = 0 then lower.1 ≤ position && position ≤ upper.1
  else lower.1 < position && position < upper.1

/-- The point of a grid that rounds to the float and is nearest to it, the larger one of two. -/
def nearest? (float : Binary) (grid : Int) : Option Nat :=
  let (numerator, denominator) := float.onGrid grid (4 * float.significand)
  let below := numerator / denominator
  match float.admits grid below, float.admits grid (below + 1) with
  | true, true => some (if 2 * numerator < (2 * below + 1) * denominator then below else below + 1)
  | true, false => some below
  | false, true => some (below + 1)
  | false, false => none

/-- The decimal exponent at which the search starts; no decimal that rounds to the float lies on a
coarser grid. -/
def coarsestGrid (float : Binary) : Int :=
  ((float.significand.log2 + 1 + float.exponent) * 30103) / 100000 + 1

/-- The nearest decimal on the coarsest of `tries` grids, downwards from `grid`, that has one. -/
def search (float : Binary) : (tries : Nat) → (grid : Int) → Scaled
  | 0, grid => ⟨(float.onGrid grid (4 * float.significand)).1, grid⟩
  | tries + 1, grid =>
    match float.nearest? grid with
    | some digits => ⟨digits, grid⟩
    | none => search float tries (grid - 1)

/-- The shortest decimal that rounds to the float, the nearest of those. -/
def shortest (float : Binary) : Scaled :=
  if float.significand = 0 then ⟨0, 0⟩ else float.search 20 float.coarsestGrid

end Binary
end MoveMachine.Decimal
