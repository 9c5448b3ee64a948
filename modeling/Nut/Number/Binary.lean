/-! Floats as exact numbers `significand * 2 ^ exponent`, read off and put into their 64 bits. -/

namespace Nut

structure Binary where
  significand : Nat
  exponent : Int

namespace Binary

def fractionField (word : UInt64) : Nat := word.toNat % Nat.pow 2 52

def exponentField (word : UInt64) : Nat := word.toNat / Nat.pow 2 52 % Nat.pow 2 11

def signField (word : UInt64) : Bool := decide (Nat.pow 2 63 ≤ word.toNat)

/-- The magnitude of a finite float. An exponent field of zero marks the numbers that have no
leading one. -/
def ofWord (word : UInt64) : Binary :=
  if exponentField word = 0 then
    ⟨fractionField word, -1074⟩
  else
    ⟨Nat.pow 2 52 + fractionField word, (exponentField word : Int) - 1075⟩

def toWord (b : Binary) : UInt64 :=
  let width := b.significand.log2
  let biased := b.exponent + width + 1023
  if b.significand = 0 then
    0
  else if biased ≤ 0 then
    (b.significand * Nat.pow 2 (b.exponent + 1074).toNat).toUInt64
  else
    ((biased.toNat - 1) * Nat.pow 2 52 + b.significand * Nat.pow 2 (52 - width)).toUInt64

/-- A float below a power of two is half as far from it as the float above. -/
def narrowBelow (word : UInt64) : Bool :=
  fractionField word = 0 && 1 < exponentField word

end Binary

/-- What is left of `x` after taking off `y` as often as it fits, with the sign of `x`. The
remainder is computed exactly on the common scale of both numbers, so it is never rounded. -/
def remainder (x y : Float) : Float :=
  if x.isNaN || y.isNaN || x.isInf || y == 0.0 then
    0.0 / 0.0
  else if y.isInf then
    x
  else
    let a := Binary.ofWord x.toBits
    let b := Binary.ofWord y.toBits
    let scale := min a.exponent b.exponent
    let left := a.significand * Nat.pow 2 (a.exponent - scale).toNat
    let right := b.significand * Nat.pow 2 (b.exponent - scale).toNat
    let rest := Float.ofBits (Binary.toWord ⟨left % right, scale⟩)
    if Binary.signField x.toBits then -rest else rest

end Nut
