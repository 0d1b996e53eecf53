/-
# Shortest decimals

Every finite double is `m * 2 ^ q` for integers, and a whole interval of reals around it rounds to
it.  Its shortest decimal is the one of fewest digits in that interval and, of those, the nearest.
It is sought in exact arithmetic: on coarser to finer decimal grids, the two neighbours of the
value are tried, and the first grid with a neighbour in the interval decides.

A `Layout` says how such a decimal is laid out as a numeral.
-/
import DriftChamber.Decimal.Numeral

namespace DriftChamber

/-- A positive double as an integer multiple of a power of two, with what tells how far its
neighbours are. -/
structure Binary where
  /-- The integer. -/
  mantissa : Nat
  /-- The power of two. -/
  power : Int
  /-- Whether the next smaller double lies only half a step below. -/
  narrowBelow : Bool

/-- The bit of a double that holds its sign. -/
def signBit : Nat := 0x8000000000000000

/-- The leading bit of a mantissa, which a double leaves out. -/
def hiddenBit : Nat := 0x10000000000000

/-- Whether a double has a minus sign; a negative zero has one. -/
def hasSign (x : Float) : Bool := decide (signBit ≤ x.toBits.toNat)

namespace Binary

/-- The magnitude of a finite double. -/
def ofFloat (x : Float) : Binary :=
  let bits : Nat := x.toBits.toNat % signBit
  let biased : Nat := bits / hiddenBit
  let low : Nat := bits % hiddenBit
  if biased = 0 then ⟨low, -1074, false⟩
  else ⟨hiddenBit + low, (biased : Int) - 1075, low == 0 && decide (1 < biased)⟩

/-- Numerator and denominator that turn a multiple of a quarter of the last binary place into a
multiple of the decimal grid `10 ^ grid`. -/
def gridRatio (b : Binary) (grid : Int) : Nat × Nat :=
  let quarter := b.power - 2
  (Nat.pow 2 quarter.toNat * Nat.pow 10 (-grid).toNat,
    Nat.pow 2 (-quarter).toNat * Nat.pow 10 grid.toNat)

/-- Whether `n` points of the grid lie in the interval of reals that round to the double.  The
ends belong to it if the mantissa is even. -/
def admits (b : Binary) (ratio : Nat × Nat) (n : Nat) : Bool :=
  let below := (4 * b.mantissa - (if b.narrowBelow then 1 else 2)) * ratio.1
  let above := (4 * b.mantissa + 2) * ratio.1
  let point := n * ratio.2
  if b.mantissa % 2 = 0 then decide (below ≤ point) && decide (point ≤ above)
  else decide (below < point) && decide (point < above)

/-- The neighbour of the value on a grid that lies in the interval; of two, the nearer.  If they are
equally near, the upper one is taken where ties go up, else the even one. -/
def onGrid? (b : Binary) (tiesUp : Bool) (grid : Int) : Option Nat :=
  let ratio := b.gridRatio grid
  let value := 4 * b.mantissa * ratio.1
  let down := value / ratio.2
  let excess := 2 * (value % ratio.2)
  match b.admits ratio down, b.admits ratio (down + 1) with
  | true, true =>
      if excess < ratio.2 || (excess = ratio.2 && !tiesUp && down % 2 = 0) then some down
      else some (down + 1)
  | true, false => some down
  | false, true => some (down + 1)
  | false, false => none

/-- Tries grids from coarse to fine, so many of them. -/
def search (b : Binary) (tiesUp : Bool) : Nat → Int → Nat × Int
  | 0, grid => (4 * b.mantissa * (b.gridRatio grid).1 / (b.gridRatio grid).2, grid)
  | tries + 1, grid =>
      match b.onGrid? tiesUp grid with
      | some n => (n, grid)
      | none => b.search tiesUp tries (grid - 1)

/-- A power of ten above the double. -/
def tenAbove (b : Binary) : Int :=
  ((b.mantissa.log2 : Int) + 1 + b.power) * 30103 / 100000 + 1

/-- Digits and power of ten of the shortest decimal.  Seventeen digits tell all doubles apart, so
twenty grids are enough. -/
def shortest (b : Binary) (tiesUp : Bool) : Nat × Int :=
  if b.mantissa = 0 then (0, 0) else b.search tiesUp 20 b.tenAbove

end Binary

/-! ## Layout -/

/-- How a decimal is laid out. -/
structure Layout where
  /-- Whether a number whose first digit stands for this power of ten is written without a power
  of ten. -/
  plain : Int → Bool
  /-- Whether a whole number gets a decimal place. -/
  keepPoint : Bool
  /-- Whether of two shortest decimals equally near the upper one is taken, not the even one. -/
  tiesUp : Bool

namespace Numeral

/-- The number `significand * 10 ^ power` without a power of ten. -/
def plain (layout : Layout) (negative : Bool) (significand : Nat) (power : Int) : Numeral :=
  if 0 ≤ power then
    ⟨negative, significand * Nat.pow 10 power.toNat,
      if layout.keepPoint then [Digit.zero] else [], none⟩
  else
    let places := (-power).toNat
    ⟨negative, significand / Nat.pow 10 places, lastDigits places significand, none⟩

/-- The number `significand * 10 ^ power` with one digit before the point. -/
def scaled (negative : Bool) (significand : Nat) (power : Int) : Numeral :=
  match digits significand with
  | [] => ⟨negative, 0, [], none⟩
  | d :: ds => ⟨negative, d.val, ds, some (power + ds.length)⟩

/-- A finite double in its shortest decimal. -/
def ofFloat (layout : Layout) (x : Float) : Numeral :=
  let negative := hasSign x
  let (significand, power) := (Binary.ofFloat x).shortest layout.tiesUp
  let lead := power + (digits significand).length - 1
  if significand = 0 || layout.plain lead then plain layout negative significand power
  else scaled negative significand power

end Numeral

namespace Layout

/-- Running text: never a power of ten, no point in whole numbers, and ties go up. -/
def running : Layout := ⟨fun _ => true, false, true⟩

/-- Stored text: a power of ten below `10 ^ -5` and from `10 ^ 16`, and always a point in numbers
without one.  Ties go to the even decimal. -/
def stored : Layout := ⟨fun lead => decide (-5 ≤ lead) && decide (lead < 16), true, false⟩

end Layout

/-- A double in running text. -/
def floatText (x : Float) : String :=
  if x.isNaN then "NaN"
  else if x.isFinite then (Numeral.ofFloat Layout.running x).toText
  else if x < 0 then "-inf" else "inf"

end DriftChamber
