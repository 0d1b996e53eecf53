/-
# Random streams

A stream of random numbers is a value: drawing from it gives a number and the stream that is left.
The same seed always gives the same numbers.  All draws are made of words of 64 bits.

* `Stream.ofSeed` starts a stream;
* `unitInterval` draws a double from 0 up to, and without, 1;
* `between` draws a natural number between two bounds, both included, each equally likely.
-/
import DriftChamber.Random.ChaCha

namespace DriftChamber

/-- A stream of random words. -/
structure Stream where
  /-- What tells the streams apart. -/
  key : Vector UInt32 8
  /-- Number of the next block of words. -/
  nextBlock : UInt64
  /-- The words left of the current block. -/
  pending : List UInt64

/-- Something drawn from a stream. -/
abbrev Draw : Type → Type := StateM Stream

namespace Stream

/-- One step of the generator that spreads a seed over a key. -/
def advance (s : UInt64) : UInt64 := s * 6364136223846793005 + 11634580027462260723

/-- The word of the key that a state of that generator gives. -/
def keyWord (s : UInt64) : UInt32 :=
  let mixed := (((s >>> 18) ^^^ s) >>> 27).toUInt32
  let count := (s >>> 59).toUInt32
  (mixed >>> count) ||| (mixed <<< (32 - count))

/-- The state after so many steps. -/
def advanced (s : UInt64) : Nat → UInt64
  | 0 => s
  | n + 1 => advance (advanced s n)

/-- The stream of a seed. -/
def ofSeed (seed : UInt64) : Stream where
  key := Vector.ofFn fun i => keyWord (advanced seed (i.val + 1))
  nextBlock := 0
  pending := []

/-- The next word. -/
def next (s : Stream) : UInt64 × Stream :=
  match s.pending with
  | word :: rest => (word, { s with pending := rest })
  | [] =>
      let words := ChaCha.pairs (ChaCha.block s.key s.nextBlock)
      (words.get 0, { s with nextBlock := s.nextBlock + 1, pending := words.toList.drop 1 })

end Stream

namespace Draw

/-- Draws a word. -/
def word : Draw UInt64 := fun s => s.next

/-- Draws a double from 0 up to, and without, 1: a multiple of the 53rd negative power of two. -/
def unitInterval : Draw Float := do
  let w ← word
  return (w >>> 11).toFloat * Float.ofBits 0x3ca0000000000000

/-- How often a draw that may be rejected is repeated.  No rejection is likelier than one half, so
the last attempt is never reached in practice. -/
def attempts : Nat := 4096

/-- Draws words until one is not rejected.  A word times the width of the range has its upper half
in the range; words whose lower half is too large are rejected, so that none is likelier. -/
def betweenWithin (low width zone : Nat) : Nat → Draw Nat
  | 0 => return low
  | tries + 1 => do
      let w ← word
      let product := w.toNat * width
      if product % UInt64.size ≤ zone then return low + product / UInt64.size
      else betweenWithin low width zone tries

/-- Draws a natural number from `low` to `high`. -/
def between (low high : Nat) : Draw Nat :=
  let width := high - low + 1
  betweenWithin low width (width * Nat.pow 2 (63 - width.log2) - 1) attempts

end Draw

end DriftChamber
