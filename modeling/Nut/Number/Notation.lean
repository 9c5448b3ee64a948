import Nut.Number.Shortest

/-! How numbers are read and written. -/

namespace Nut

def Decimal.ofDigits (cs : List Char) : Nat :=
  Nat.ofDigitChars 10 cs 0

def Decimal.toDigits (n : Nat) : List Char :=
  Nat.toDigits 10 n

namespace Notation

/-- The point after the first `point` digits, with zeros where digits are missing and at least
one digit on either side. -/
def positional (digits : List Char) (point : Int) : List Char :=
  let whole := digits.take point.toNat ++ List.replicate (point.toNat - digits.length) '0'
  let fraction := List.replicate (-point).toNat '0' ++ digits.drop point.toNat
  (if whole.isEmpty then ['0'] else whole) ++ '.' :: (if fraction.isEmpty then ['0'] else fraction)

def scientific (digits : List Char) (point : Int) : List Char :=
  let fraction := digits.drop 1
  digits.take 1 ++ (if fraction.isEmpty then [] else '.' :: fraction) ++
    'e' :: (toString (point - 1)).toList

def decimal (d : Decimal) : List Char :=
  let digits := Decimal.toDigits d.digits
  let point := digits.length + d.exponent
  if -3 ≤ point ∧ point ≤ 16 then positional digits point else scientific digits point

def magnitude (x : Float) : List Char :=
  if x.isInf then
    "inf".toList
  else if x == 0.0 then
    "0.0".toList
  else
    decimal (Rounding.ofWord x.toBits).shortest

end Notation

/-- The fewest digits that read back to `x`. The sign of zero is shown, that of an undefined
value is not. -/
def floatText (x : Float) : String :=
  if x.isNaN then
    "NaN"
  else
    String.ofList ((if Binary.signField x.toBits then ['-'] else []) ++ Notation.magnitude x)

def readFloat (literal : String) : Float :=
  let whole := literal.toList.takeWhile Char.isDigit
  let fraction := (literal.toList.dropWhile Char.isDigit).drop 1
  Float.ofScientific (Decimal.ofDigits (whole ++ fraction)) true fraction.length

def integerText (n : Int64) : String :=
  toString n.toInt

def int64? (n : Int) : Option Int64 :=
  if -9223372036854775808 ≤ n ∧ n ≤ 9223372036854775807 then some (Int64.ofInt n) else none

def readInteger? (literal : String) : Option Int64 :=
  int64? (Decimal.ofDigits literal.toList)

theorem toInt_of_int64? {n : Int} {w : Int64} (h : int64? n = some w) :
    w.toInt = n := by
  unfold int64? at h
  split at h
  · next hn =>
    cases h
    exact Int64.toInt_ofInt_of_le (by omega) (by omega)
  · cases h

theorem int64?_eq_none_iff {n : Int} :
    int64? n = none ↔ n < -9223372036854775808 ∨ 9223372036854775807 < n := by
  unfold int64?
  split <;> simp <;> omega

theorem int64?_toInt (w : Int64) : int64? w.toInt = some w := by
  have hl := w.le_toInt
  have hu := w.toInt_lt
  rw [int64?, if_pos (by omega), Int64.ofInt_toInt]

theorem readInteger?_integerText {n : Nat} (h : n ≤ 9223372036854775807) :
    readInteger? (toString n) = some (Int64.ofInt n) := by
  have hd : Decimal.ofDigits (toString n).toList = n := by
    rw [show toString n = n.repr from rfl, Nat.repr_eq_ofList_toDigits]
    simp [Decimal.ofDigits, Nat.ofDigitChars_toDigits]
  rw [readInteger?, hd, int64?, if_pos (by omega)]

end Nut
