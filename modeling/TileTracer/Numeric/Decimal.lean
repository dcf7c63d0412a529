namespace TileTracer

/-- A decimal `digits · 10 ^ exponent`. -/
structure Decimal where
  digits : Nat
  exponent : Int
  deriving DecidableEq, Repr

namespace Decimal

/-- The finite binary32 value with these bits is `m · 2 ^ (e - 150)` for the result `(m, e)`. -/
def decode (bits : UInt32) : Nat × Nat :=
  let fraction := bits.toNat % 0x800000
  let exponent := bits.toNat / 0x800000 % 0x100
  if exponent = 0 then (fraction, 1) else (fraction + 0x800000, exponent)

/-- The multiple of `10 ^ k` that reads back as the value and lies nearest to it, the larger one
of two equally near. The value is `m · 2 ^ (e - 150)`, and the reals that round to it reach half
way to its neighbours, ends included for even `m`. -/
def onGrid (m e : Nat) (k : Int) : Option Decimal :=
  -- a quarter of the last place is 2 ^ (e - 152); one grid step is `den / num` of these quarters
  let num := Nat.pow 2 (e - 152) * Nat.pow 10 (-k).toNat
  let den := Nat.pow 2 (152 - e) * Nat.pow 10 k.toNat
  let below := if m = 0x800000 && 1 < e then 1 else 2
  let value := 4 * m * num
  let low := (4 * m - below) * num
  let high := (4 * m + 2) * num
  let readsBack (c : Nat) : Bool :=
    if m % 2 = 0 then low ≤ c * den && c * den ≤ high else low < c * den && c * den < high
  let down := value / den
  let up := down + 1
  match readsBack down, readsBack up with
  | true, true => if value - down * den < up * den - value then some ⟨down, k⟩ else some ⟨up, k⟩
  | true, false => some ⟨down, k⟩
  | false, true => some ⟨up, k⟩
  | false, false => none

/-- The decimal on the coarsest grid that has one; every value has one between 10 ^ 38 and
10 ^ -45. -/
def shortest (m e : Nat) : Decimal :=
  ((List.range 84).findSome? fun (i : Nat) => onGrid m e (38 - i)).getD ⟨0, 0⟩

def positional (d : Decimal) : String :=
  let digits := (toString d.digits).toList
  match d.exponent with
  | .ofNat n => .ofList (digits ++ List.replicate n '0')
  | .negSucc n =>
    let places := n + 1
    if digits.length ≤ places then
      .ofList ('0' :: '.' :: List.replicate (places - digits.length) '0' ++ digits)
    else
      .ofList (digits.take (digits.length - places) ++ '.' :: digits.drop (digits.length - places))

/-- The text of a binary32 value: the fewest digits that read back, never with an exponent. -/
def text (x : Float32) : String :=
  let bits := x.toBits
  let sign := if bits < 0x80000000 then "" else "-"
  if x.isNaN then "NaN"
  else if x.isInf then sign ++ "inf"
  else
    let (m, e) := decode bits
    sign ++ if m = 0 then "0" else positional (shortest m e)

end Decimal

end TileTracer
