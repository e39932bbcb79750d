/-!
# Numbers of double precision

A finite number of double precision is a natural number times a power of two, with a sign
(`Binary64.parts`). `Binary64.shortest` finds the decimal with the fewest digits that reads back as
the number, the nearest one if there are several: it tries the powers of ten from large to small
and takes the first one with a multiple among the reals that round to the number.
-/

namespace HdlLint

/-- A number of double precision, by its bits. -/
structure Binary64 where
  bits : UInt64
deriving DecidableEq, Repr

namespace Binary64

/-- The weight of the sign bit. -/
def signWeight : Nat := 0x8000000000000000

/-- The weight of the lowest bit of the exponent. It is also that of the bit that stands, unwritten,
in front of the fraction. -/
def exponentWeight : Nat := 0x10000000000000

/-- The exponent of the numbers that are not finite. -/
def lastExponent : Nat := 0x7ff

/-- Whether the sign bit is set. -/
def isNegative (x : Binary64) : Bool :=
  signWeight ≤ x.bits.toNat

/-- The eleven bits of the exponent. -/
def exponentField (x : Binary64) : Nat :=
  x.bits.toNat / exponentWeight % (lastExponent + 1)

/-- The fifty-two bits behind the exponent. -/
def fractionField (x : Binary64) : Nat :=
  x.bits.toNat % exponentWeight

/-- Whether a number is finite. -/
def isFinite (x : Binary64) : Bool :=
  x.exponentField ≠ lastExponent

/-- Whether a number is not a number. -/
def isNaN (x : Binary64) : Bool :=
  !x.isFinite && x.fractionField ≠ 0

/-- The natural number `m` and the exponent `q` with the absolute value `m * 2 ^ q`. -/
def parts (x : Binary64) : Nat × Int :=
  if x.exponentField = 0 then (x.fractionField, -1074)
  else (x.fractionField + exponentWeight, (x.exponentField : Int) - 1075)

/-- The number with a sign and the bits of an absolute value. -/
def ofBits (negative : Bool) (size : Nat) : Binary64 :=
  ⟨UInt64.ofNat (if negative then signWeight + size else size)⟩

/-- The infinite number of a sign. -/
def infinity (negative : Bool) : Binary64 :=
  ofBits negative 0x7ff0000000000000

/-- What is not a number, with a sign. -/
def notANumber (negative : Bool) : Binary64 :=
  ofBits negative 0x7ff8000000000000

/-- The number that a decimal reads as: `m * 10 ^ e`, negative or not. Numbers from `10 ^ 310` on
are too large for a finite one, and those below `10 ^ -330` are nearest to zero. -/
def ofDecimal (negative : Bool) (m : Nat) (e : Int) : Binary64 :=
  let digits : Int := (toString m).length
  if m = 0 || digits + e < -330 then ofBits negative 0
  else if 310 < digits + e then infinity negative
  else ofBits negative (Float.ofScientific m (e < 0) e.natAbs).toBits.toNat

/-- The fraction `n * 2 ^ two / 10 ^ ten` as a numerator and a denominator. -/
def fraction (n : Nat) (two ten : Int) : Nat × Nat :=
  ((n <<< two.toNat) * Nat.pow 10 (-ten).toNat, (1 <<< (-two).toNat) * Nat.pow 10 ten.toNat)

/-- The multiple of `10 ^ k` nearest to `m * 2 ^ q` among the reals that round to it: those within
half a step of its neighbours, the ends only where `m` is even. -/
def nearest? (m : Nat) (q k : Int) : Option Nat :=
  let (value, den) := fraction (4 * m) (q - 2) k
  let (high, _) := fraction (4 * m + 2) (q - 2) k
  let (low, _) :=
    fraction (if m = exponentWeight ∧ q ≠ -1074 then 4 * m - 1 else 4 * m - 2) (q - 2) k
  let fits (d : Nat) : Bool :=
    d ≠ 0 && (if m % 2 = 0 then low ≤ d * den && d * den ≤ high
      else low < d * den && d * den < high)
  let below := value / den
  let gapBelow := value - below * den
  let gapAbove := (below + 1) * den - value
  match fits below, fits (below + 1) with
  | true, true =>
    if gapBelow < gapAbove || (gapBelow = gapAbove && below % 2 = 0) then some below
    else some (below + 1)
  | true, false => some below
  | false, true => some (below + 1)
  | false, false => none

/-- Tries the powers of ten from `10 ^ k` down to the given count. -/
def shortestFrom (m : Nat) (q : Int) : (count : Nat) → (k : Int) → Nat × Int
  | 0, k => (0, k)
  | count + 1, k =>
    match nearest? m q k with
    | some d => (d, k)
    | none => shortestFrom m q count (k - 1)

/-- The decimal `d * 10 ^ k` with the fewest digits that reads back as the absolute value of a
finite number. -/
def shortest (x : Binary64) : Nat × Int :=
  let (m, q) := x.parts
  if m = 0 then (0, 0) else shortestFrom m q 640 310

end Binary64

end HdlLint
