import TileTracer.Numeric.Scaled
import TileTracer.Text.Digits

namespace TileTracer

open Text (isDigits ofDigits appendBelow cut)

structure NumberLiteral where
  negative : Bool
  whole : List Char
  fraction : Option (List Char)
  /-- The power of ten by which the digits are multiplied, if one is written. -/
  power : Option Int
  deriving DecidableEq, Repr

/-- How the digits of a number become a value. -/
inductive NumberReading where
  /-- As the binary32 value nearest to the significant digits. -/
  | nearest
  /-- By scaling the digits that fit 64 bits in binary64 arithmetic. -/
  | scaled
  deriving DecidableEq, Repr

namespace NumberLiteral

def power? : List Char → Option Int
  | '+' :: digits => if isDigits digits then some (ofDigits digits) else none
  | '-' :: digits => if isDigits digits then some (-ofDigits digits) else none
  | digits => if isDigits digits then some (ofDigits digits) else none

/-- A number without its sign. A zero in front is the only digit before the point. -/
def unsigned? (negative : Bool) (cs : List Char) : Option NumberLiteral := do
  let (mantissa, power) := cut (fun c => c = 'e' || c = 'E') cs
  let (whole, fraction) := cut (· = '.') mantissa
  if !isDigits whole || (whole.head? = some '0' && whole.length ≠ 1) then none
  if !fraction.all isDigits then none
  match power with
  | none => some { negative, whole, fraction, power := none }
  | some cs => return { negative, whole, fraction, power := some (← power? cs) }

def ofChars? : List Char → Option NumberLiteral
  | '-' :: cs => unsigned? true cs
  | cs => unsigned? false cs

def isWhole (n : NumberLiteral) : Bool := n.fraction.isNone && n.power.isNone

def wholePart (n : NumberLiteral) : Nat := ofDigits n.whole

/-- How many significant digits a midpoint between two binary32 values can have. -/
def midpointDigits : Nat := 113

/-- The size of the number by its first significant digits. The digits behind them count as a single
1, which is enough to tell on which side of a midpoint the number lies. They do so even if all of
them are zeros; only the zeros that end the fraction are left out of account. -/
def significant (n : NumberLiteral) : Decimal :=
  let places := ((n.fraction.getD []).reverse.dropWhile (· = '0')).reverse
  let digits := (n.whole ++ places).dropWhile (· = '0')
  let power := n.power.getD 0 - places.length
  match digits.drop midpointDigits with
  | [] => ⟨ofDigits digits, power⟩
  | rest => ⟨10 * ofDigits (digits.take midpointDigits) + 1, power + rest.length - 1⟩

/-- The size of the number by its digits that fit 64 bits. Of those before the point that do not
fit, only the number counts. -/
def leading (n : NumberLiteral) : Decimal :=
  let places := n.fraction.getD []
  let (digits, dropped) := appendBelow UInt64.size 0 n.whole
  let (digits, ignored) := appendBelow UInt64.size digits places
  ⟨digits, n.power.getD 0 + dropped.length + ignored.length - places.length⟩

/-- The binary32 value of a whole number that fits 64 bits. Below the range of signed words it is
rounded by way of binary64. -/
def ofWord (negative : Bool) (size : UInt64) : Float32 :=
  if negative && 0x8000000000000000 < size then size.toFloat.toFloat32 else size.toFloat32

def size? (reading : NumberReading) (n : NumberLiteral) : Option Float32 :=
  if n.isWhole && n.wholePart < UInt64.size then some (ofWord n.negative n.wholePart.toUInt64)
  else match reading with
    | .nearest => n.significant.nearest?
    | .scaled => n.leading.scaled?.map Float.toFloat32

def float? (reading : NumberReading) (n : NumberLiteral) : Option Float32 :=
  (n.size? reading).map fun x => if n.negative then -x else x

def word? (n : NumberLiteral) : Option UInt32 :=
  if n.isWhole && !n.negative && n.wholePart < UInt32.size then some n.wholePart.toUInt32 else none

end NumberLiteral

end TileTracer
