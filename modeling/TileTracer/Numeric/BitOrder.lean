namespace TileTracer.BitOrder

/-- The low bits of a number, the lowest first. -/
def little (count n : Nat) : Array Bool := (Array.range count).map n.testBit

def big (count n : Nat) : Array Bool := (little count n).reverse

def ofLittle (bits : Array Bool) : Nat := bits.foldr (fun b n => 2 * n + b.toNat) 0

/-- Groups of eight bits, the last one filled up. -/
def octets (fill : Bool) (bits : Array Bool) : Array (Array Bool) :=
  (Array.range ((bits.size + 7) / 8)).map fun i =>
    let part := bits.extract (8 * i) (8 * i + 8)
    part ++ Array.replicate (8 - part.size) fill

/-- Bytes that take their bits from the lowest to the highest, at the end zeros. -/
def pack (bits : Array Bool) : Array UInt8 :=
  (octets false bits).map fun octet => (ofLittle octet).toUInt8

/-- Bytes that take their bits from the highest to the lowest, at the end ones. -/
def packReversed (bits : Array Bool) : Array UInt8 :=
  (octets true bits).map fun octet => (ofLittle octet.reverse).toUInt8

end TileTracer.BitOrder
