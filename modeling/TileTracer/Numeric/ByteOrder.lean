namespace TileTracer.ByteOrder

/-- The low bytes of a number, the lowest first. -/
def little (count n : Nat) : Array UInt8 :=
  (Array.range count).map fun i => (n / Nat.pow 256 i).toUInt8

def big (count n : Nat) : Array UInt8 := (little count n).reverse

/-- The characters of a text, which are below 128, one byte each. -/
def ascii (s : String) : Array UInt8 := (s.toList.map fun c => c.toNat.toUInt8).toArray

end TileTracer.ByteOrder
