import Nut.Number.Binary

/-! The decimal with the fewest digits among those that round to a given float, and the nearest
of them. -/

namespace Nut

structure Decimal where
  digits : Nat
  exponent : Int

/-- The numbers that round to one float, in units of `2 ^ unit`: those between `low` and `high`,
the two ends included when `closed` holds. The float itself is at `centre`. -/
structure Rounding where
  low : Nat
  centre : Nat
  high : Nat
  closed : Bool
  unit : Int

namespace Rounding

/-- A quarter of the spacing of floats is fine enough for both ends. Ties round to an even
significand, which therefore owns its ends. -/
def ofWord (word : UInt64) : Rounding :=
  let b := Binary.ofWord word
  { low := 4 * b.significand - (if Binary.narrowBelow word then 1 else 2)
    centre := 4 * b.significand
    high := 4 * b.significand + 2
    closed := b.significand % 2 = 0
    unit := b.exponent - 2 }

/-- With `unitScale`, turns the comparison of `d * 10 ^ e` and `k * 2 ^ unit` into that of the
whole numbers `d * gridScale` and `k * unitScale`. -/
def gridScale (r : Rounding) (e : Int) : Nat :=
  Nat.pow 10 e.toNat * Nat.pow 2 (-r.unit).toNat

def unitScale (r : Rounding) (e : Int) : Nat :=
  Nat.pow 10 (-e).toNat * Nat.pow 2 r.unit.toNat

def contains (r : Rounding) (d : Decimal) : Bool :=
  let x := d.digits * r.gridScale d.exponent
  let low := r.low * r.unitScale d.exponent
  let high := r.high * r.unitScale d.exponent
  if r.closed then decide (low ≤ x ∧ x ≤ high) else decide (low < x ∧ x < high)

/-- The multiples of `10 ^ e` next to the centre, the nearer one first and of two equally near
ones the larger. -/
def neighbours (r : Rounding) (e : Int) : List Decimal :=
  let grid := r.gridScale e
  let centre := r.centre * r.unitScale e
  let below := centre / grid
  if 2 * (centre % grid) < grid then
    [⟨below, e⟩, ⟨below + 1, e⟩]
  else
    [⟨below + 1, e⟩, ⟨below, e⟩]

/-- An exponent of ten above the centre. Three hundred and one thousandths are a little less than
the decimal logarithm of two. -/
def top (r : Rounding) : Int :=
  ((r.centre.log2 : Int) + r.unit) * 301 / 1000 + 2

/-- From the coarsest grid to one finer than seventeen digits, which always suffice. -/
def grids (r : Rounding) : List Int :=
  (List.range 24).map fun i : Nat => r.top - i

def shortest (r : Rounding) : Decimal :=
  (r.grids.findSome? fun e => (r.neighbours e).find? r.contains).getD ⟨0, 0⟩

end Rounding

end Nut
