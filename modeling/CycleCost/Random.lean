/-
Module: CycleCost.Random
Purpose: Reproducible random numbers: a stream cipher of eight rounds as generator, its key spread from a
  64-bit seed, and a draw from a symmetric interval. Only the first number of a stream is ever used.
Main exports: Random.keyOfSeed, Random.firstWord, Random.symmetric
-/

namespace CycleCost.Random

def rotateLeft (x : UInt32) (n : UInt32) : UInt32 := (x <<< n) ||| (x >>> (32 - n))

/-- The seed generator's next state. -/
def advance (state : UInt64) : UInt64 := state * 6364136223846793005 + 11634580027462260723

/-- The word that the seed generator puts out at a state: its high bits mixed, then rotated by its top
    five. -/
def output (state : UInt64) : UInt32 :=
  let mixed := (((state >>> 18) ^^^ state) >>> 27).toUInt32
  let turn := (state >>> 59).toUInt32
  (mixed >>> turn) ||| (mixed <<< ((32 - turn) % 32))

/-- `n` output words from a state. -/
def outputs : Nat → UInt64 → List UInt32
  | 0, _ => []
  | n + 1, state =>
    let next := advance state
    output next :: outputs n next

def keyOfSeed (seed : UInt64) : List UInt32 := outputs 8 seed

/-- The four words that a quarter round mixes. -/
structure Quarter where
  (a b c d : UInt32)

/-- Four additions, each followed by an exclusive or and a rotation. -/
def Quarter.mix (q : Quarter) : Quarter :=
  let a := q.a + q.b
  let d := rotateLeft (q.d ^^^ a) 16
  let c := q.c + d
  let b := rotateLeft (q.b ^^^ c) 12
  let a := a + b
  let d := rotateLeft (d ^^^ a) 8
  let c := c + d
  let b := rotateLeft (b ^^^ c) 7
  ⟨a, b, c, d⟩

/-- The sixteen words of a block as four rows of a square. -/
structure Block where
  (first second third fourth : List UInt32)

/-- A quarter round on every column of the square. -/
def Block.mixColumns (s : Block) : Block :=
  let columns := (s.first.zip s.second).zip (s.third.zip s.fourth)
  let mixed := columns.map fun ((a, b), (c, d)) => Quarter.mix ⟨a, b, c, d⟩
  ⟨mixed.map (·.a), mixed.map (·.b), mixed.map (·.c), mixed.map (·.d)⟩

/-- A row moved `n` places to the left, around its end. -/
def turned (n : Nat) (row : List UInt32) : List UInt32 := row.drop n ++ row.take n

/-- A round on the columns, then one on the diagonals, which are the columns after the rows have been
    moved by 0, 1, 2 and 3 places. -/
def Block.doubleRound (s : Block) : Block :=
  let s := s.mixColumns
  let s := Block.mixColumns ⟨s.first, turned 1 s.second, turned 2 s.third, turned 3 s.fourth⟩
  ⟨s.first, turned 3 s.second, turned 2 s.third, turned 1 s.fourth⟩

def Block.rounds : Nat → Block → Block
  | 0, s => s
  | n + 1, s => Block.rounds n s.doubleRound

/-- The first block of a stream before mixing: the four constant words, the key, and zeros for counter and
    stream number. -/
def startBlock (key : List UInt32) : Block :=
  ⟨[0x61707865, 0x3320646e, 0x79622d32, 0x6b206574], key.take 4, key.drop 4, [0, 0, 0, 0]⟩

/-- The first 64-bit number of a seed's stream: the first two words of the mixed block added to the block
    before mixing, the low word first. -/
def firstWord (seed : UInt64) : UInt64 :=
  let start := startBlock (keyOfSeed seed)
  let mixed := start.rounds 4
  match mixed.first.zipWith (· + ·) start.first with
  | low :: high :: _ => low.toUInt64 ||| (high.toUInt64 <<< 32)
  | _ => 0

/-- The fraction in `[0, 1)` that the upper 52 bits of a word denote. -/
def fraction (word : UInt64) : Float := Float.ofNat (word >>> 12).toNat / Float.ofNat (Nat.pow 2 52)

def largestFraction : Float := 1.0 - 1.0 / Float.ofNat (Nat.pow 2 52)

/-- The largest float with bit pattern at most `bits` that scales no fraction beyond `high`. -/
def scaleWithin (low high : Float) : (bits : Nat) → Float
  | 0 => 0.0
  | bits + 1 =>
    let scale := Float.ofBits (UInt64.ofNat (bits + 1))
    if high < scale * largestFraction + low then scaleWithin low high bits else scale

/-- A number between `-width` and `width`, both included, from the first word of a seed's stream. -/
def symmetric (width : Float) (seed : UInt64) : Float :=
  let low := -width
  let widest := (width - low) / largestFraction
  fraction (firstWord seed) * scaleWithin low width widest.toBits.toNat + low

end CycleCost.Random
