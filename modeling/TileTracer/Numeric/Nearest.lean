import TileTracer.Numeric.Decimal

namespace TileTracer

/-- The natural number nearest to `num / den`, the even one of two equally near. -/
def nearestNat (num den : Nat) : Nat :=
  let down := num / den
  let twice := 2 * (num % den)
  if twice < den || (twice = den && down % 2 = 0) then down else down + 1

/-- A binary floating-point format. The values with exponent field `e` are multiples of
`2 ^ (e - bias - fractionBits)`, and those with field 0 lie on the grid of field 1. -/
structure BinaryFormat where
  fractionBits : Nat
  bias : Nat
  deriving DecidableEq, Repr

namespace BinaryFormat

def binary32 : BinaryFormat := ⟨23, 127⟩

def binary64 : BinaryFormat := ⟨52, 1023⟩

def infinity (f : BinaryFormat) : Nat := (2 * f.bias + 1) * Nat.pow 2 f.fractionBits

/-- The bits of the value nearest to `num / den`, which is above zero. What is too large for any
finite value gets the bits of infinity or more. -/
def nearestBits (f : BinaryFormat) (num den : Nat) : Nat :=
  -- on the grid of `e`, the value lies between `2 ^ fractionBits` and four times that, or below
  -- for `e = 1`
  let e := max 1 (num.log2 + (f.bias - 1) - den.log2)
  let origin := f.bias + f.fractionBits
  let steps (e : Nat) : Nat × Nat :=
    (num * Nat.pow 2 (origin - e), den * Nat.pow 2 (e - origin))
  let e := if (steps e).1 / (steps e).2 < Nat.pow 2 (f.fractionBits + 1) then e else e + 1
  (e - 1) * Nat.pow 2 f.fractionBits + nearestNat (steps e).1 (steps e).2

end BinaryFormat

namespace Decimal

def nearestBits? (f : BinaryFormat) (d : Decimal) : Option Nat :=
  -- powers of ten lie farther from one than those of eight, so `2 ^ size` bounds the value from the
  -- side of one, up to a factor of two
  let size : Int := d.digits.log2 + 3 * d.exponent
  if d.digits = 0 || (d.exponent < 0 && size < -(f.bias + f.fractionBits : Int)) then some 0
  else if 0 ≤ d.exponent && f.bias < size then none
  else
    let bits :=
      f.nearestBits (d.digits * Nat.pow 10 d.exponent.toNat) (Nat.pow 10 (-d.exponent).toNat)
    if bits < f.infinity then some bits else none

def nearest? (d : Decimal) : Option Float32 :=
  (d.nearestBits? .binary32).map fun bits => Float32.ofBits bits.toUInt32

def nearestDouble? (d : Decimal) : Option Float :=
  (d.nearestBits? .binary64).map fun bits => Float.ofBits bits.toUInt64

end Decimal

end TileTracer
