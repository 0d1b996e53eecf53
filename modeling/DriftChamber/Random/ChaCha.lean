/-
# The ChaCha block function

Sixteen words of 32 bits, of which eight are the key and two count the blocks, are stirred by
eight rounds of additions, exclusive ors and rotations, and added to themselves.  Each block so
yields sixteen words that look random.
-/
namespace DriftChamber.ChaCha

/-- The words of a block. -/
abbrev Block : Type := Vector UInt32 16

/-- Rotation to the left. -/
def rotateLeft (word count : UInt32) : UInt32 := (word <<< count) ||| (word >>> (32 - count))

/-- Stirs four words. -/
def quarterRound (s : Block) (a b c d : Fin 16) : Block :=
  let a₁ := s[a] + s[b]
  let d₁ := rotateLeft (s[d] ^^^ a₁) 16
  let c₁ := s[c] + d₁
  let b₁ := rotateLeft (s[b] ^^^ c₁) 12
  let a₂ := a₁ + b₁
  let d₂ := rotateLeft (d₁ ^^^ a₂) 8
  let c₂ := c₁ + d₂
  let b₂ := rotateLeft (b₁ ^^^ c₂) 7
  (((s.set a a₂).set b b₂).set c c₂).set d d₂

/-- One round on the columns and one on the diagonals. -/
def doubleRound (s : Block) : Block :=
  let s := quarterRound s 0 4 8 12
  let s := quarterRound s 1 5 9 13
  let s := quarterRound s 2 6 10 14
  let s := quarterRound s 3 7 11 15
  let s := quarterRound s 0 5 10 15
  let s := quarterRound s 1 6 11 12
  let s := quarterRound s 2 7 8 13
  quarterRound s 3 4 9 14

/-- The block before stirring: four constants, the key, the number of the block and two zeros. -/
def start (key : Vector UInt32 8) (number : UInt64) : Block :=
  #v[0x61707865, 0x3320646e, 0x79622d32, 0x6b206574,
    key[0], key[1], key[2], key[3], key[4], key[5], key[6], key[7],
    number.toUInt32, (number >>> 32).toUInt32, 0, 0]

/-- The block of the given number, after eight rounds. -/
def block (key : Vector UInt32 8) (number : UInt64) : Block :=
  let s := start key number
  let stirred := doubleRound (doubleRound (doubleRound (doubleRound s)))
  stirred.zipWith (· + ·) s

/-- The words of a block in pairs, the first of a pair being the lower half. -/
def pairs (b : Block) : Vector UInt64 8 :=
  Vector.ofFn fun i =>
    (b.get ⟨2 * i.val, by omega⟩).toUInt64 ||| ((b.get ⟨2 * i.val + 1, by omega⟩).toUInt64 <<< 32)

end DriftChamber.ChaCha
