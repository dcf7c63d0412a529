/-!
A stream of 32-bit words: the ChaCha keystream with twelve rounds, a 64-bit block counter from zero
and a zero nonce. The key is expanded from a 64-bit seed.
-/

namespace TileTracer.Random

/-- A word rotated left, for amounts strictly between 0 and 32. -/
@[inline] def rotateLeft (word amount : UInt32) : UInt32 :=
  (word <<< amount) ||| (word >>> (32 - amount))

structure Row where
  a : UInt32
  b : UInt32
  c : UInt32
  d : UInt32
  deriving DecidableEq, Repr

namespace Row

@[inline] def map (f : UInt32 → UInt32) (x : Row) : Row := ⟨f x.a, f x.b, f x.c, f x.d⟩

@[inline] def zipWith (f : UInt32 → UInt32 → UInt32) (x y : Row) : Row :=
  ⟨f x.a y.a, f x.b y.b, f x.c y.c, f x.d y.d⟩

@[inline] def turn (x : Row) : Row := ⟨x.b, x.c, x.d, x.a⟩

def toList (x : Row) : List UInt32 := [x.a, x.b, x.c, x.d]

end Row

/-- The sixteen words that ChaCha works on, in four rows. -/
structure Block where
  first : Row
  second : Row
  third : Row
  fourth : Row
  deriving DecidableEq, Repr

namespace Block

/-- Adds `y` to `x`, mixes the sum into `z`, and rotates that. -/
@[inline] def stir (x y z : Row) (amount : UInt32) : Row × Row :=
  let x := x.zipWith (· + ·) y
  (x, (z.zipWith (· ^^^ ·) x).map (rotateLeft · amount))

@[inline] def columnRound (s : Block) : Block :=
  let (first, fourth) := stir s.first s.second s.fourth 16
  let (third, second) := stir s.third fourth s.second 12
  let (first, fourth) := stir first second fourth 8
  let (third, second) := stir third fourth second 7
  ⟨first, second, third, fourth⟩

/-- The block with its diagonals as columns. -/
@[inline] def slant (s : Block) : Block :=
  ⟨s.first, s.second.turn, s.third.turn.turn, s.fourth.turn.turn.turn⟩

@[inline] def unslant (s : Block) : Block :=
  ⟨s.first, s.second.turn.turn.turn, s.third.turn.turn, s.fourth.turn⟩

def doubleRound (s : Block) : Block := s.columnRound.slant.columnRound.unslant

def doubleRounds : Nat → Block → Block
  | 0, s => s
  | n + 1, s => doubleRounds n s.doubleRound

def add (s t : Block) : Block :=
  let sum := Row.zipWith (· + ·)
  ⟨sum s.first t.first, sum s.second t.second, sum s.third t.third, sum s.fourth t.fourth⟩

def toList (s : Block) : List UInt32 :=
  s.first.toList ++ s.second.toList ++ s.third.toList ++ s.fourth.toList

end Block

structure Key where
  low : Row
  high : Row
  deriving DecidableEq, Repr

/-- The block of the keystream at a counter. -/
def keystream (key : Key) (counter : UInt64) : Block :=
  let start : Block := {
    first := ⟨0x61707865, 0x3320646E, 0x79622D32, 0x6B206574⟩
    second := key.low
    third := key.high
    fourth := ⟨counter.toUInt32, (counter >>> 32).toUInt32, 0, 0⟩ }
  (Block.doubleRounds 6 start).add start

/-- One step of the generator that expands seeds. -/
def advanceSeed (state : UInt64) : UInt64 :=
  state * 6364136223846793005 + 11634580027462260723

/-- The key word drawn from a state: its high bits, folded and rotated. -/
def seedWord (state : UInt64) : UInt32 :=
  let folded := (((state >>> 18) ^^^ state) >>> 27).toUInt32
  let amount := (state >>> 59).toUInt32
  (folded >>> amount) ||| (folded <<< ((32 - amount) % 32))

/-- The words of the next four states, and the last of these. -/
def seedRow (state : UInt64) : Row × UInt64 :=
  let s1 := advanceSeed state
  let s2 := advanceSeed s1
  let s3 := advanceSeed s2
  let s4 := advanceSeed s3
  (⟨seedWord s1, seedWord s2, seedWord s3, seedWord s4⟩, s4)

def keyOfSeed (seed : UInt64) : Key :=
  let (low, state) := seedRow seed
  ⟨low, (seedRow state).1⟩

/-- A position in a keystream. -/
structure Stream where
  key : Key
  counter : UInt64
  /-- The words of the current block that have not been drawn. -/
  pending : List UInt32
  deriving DecidableEq, Repr

namespace Stream

def ofSeed (seed : UInt64) : Stream := ⟨keyOfSeed seed, 0, []⟩

def word (s : Stream) : UInt32 × Stream :=
  match s.pending with
  | w :: ws => (w, { s with pending := ws })
  | [] =>
    let block := keystream s.key s.counter
    (block.first.a, { s with counter := s.counter + 1, pending := block.toList.drop 1 })

/-- The next number in the unit interval, a multiple of 2 ^ -24 below one. -/
def unit (s : Stream) : Float32 × Stream :=
  let (w, s) := s.word
  ((w >>> 8).toFloat32 * (1.0 / 16777216.0), s)

end Stream

end TileTracer.Random
