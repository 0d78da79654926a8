import Sqlwright.Number.Decimal

/-!
# Shortest decimals

The fewest decimal digits that read back as a given binary number, and of the decimals with so
many digits the nearest one. The grids of one, two, … digits are tried in turn: if a point of a
grid reads back, so does one of the number's two neighbours on that grid.
-/

namespace Sqlwright.Number

/-- Which of two equally near decimals is taken. -/
inductive Tie where
  | up
  | even
  deriving DecidableEq, Repr

/-- The reals that read back as a positive number, all over one denominator: the number itself and
the ends of its interval, which belong to it when `closed` holds. -/
structure Interval where
  low : Nat
  value : Nat
  high : Nat
  den : Nat
  closed : Bool

/-- The interval of `significand * 2 ^ exponent` in the format of 64 bits. Below a power of two the
neighbour is half as far away. -/
def interval (significand : Nat) (exponent : Int) : Interval :=
  let below := if significand = pow2 52 ∧ -1074 < exponent then 1 else 2
  let e := exponent - 2
  let up := pow2 e.toNat
  let den := pow2 (-e).toNat
  ⟨(4 * significand - below) * up, 4 * significand * up, (4 * significand + 2) * up, den,
    decide (significand % 2 = 0)⟩

/-- Whether `k * 10 ^ j` lies in the interval. -/
def Interval.holds (i : Interval) (k : Nat) (j : Int) : Bool :=
  let x := k * pow10 j.toNat * i.den
  let s := pow10 (-j).toNat
  if i.closed then decide (i.low * s ≤ x) && decide (x ≤ i.high * s)
  else decide (i.low * s < x) && decide (x < i.high * s)

/-- The value over `10 ^ j`, as a fraction. -/
def Interval.over (i : Interval) (j : Int) : Nat × Nat :=
  (i.value * pow10 (-j).toNat, i.den * pow10 j.toNat)

/-- The greatest `k` with `10 ^ k` at most the value, from an estimate by binary logarithms. -/
def Interval.decade (i : Interval) : Int :=
  let guess : Int := ((i.value.log2 : Int) - (i.den.log2 : Int)) * 30103 / 100000
  let fits (k : Int) : Bool := let (n, d) := i.over k; decide (d ≤ n)
  if fits (guess + 1) then guess + 1 else if fits guess then guess else guess - 1

/-- The value's neighbour on the grid of `10 ^ j`, if one of the two reads back. -/
def Interval.onGrid (i : Interval) (tie : Tie) (j : Int) : Option Nat :=
  let (n, d) := i.over j
  let k := n / d
  let r := n % d
  let nearer :=
    if 2 * r < d then k
    else if d < 2 * r then k + 1
    else match tie with
      | .up => k + 1
      | .even => k + k % 2
  let other := if nearer = k then k + 1 else k
  if i.holds nearer j then some nearer else if i.holds other j then some other else none

/-- Tries the grids from coarse to fine. -/
def Interval.search (i : Interval) (tie : Tie) : Nat → Int → Decimal
  | 0, j => ⟨(i.over j).1 / (i.over j).2, j⟩
  | steps + 1, j =>
    match i.onGrid tie j with
    | some k => ⟨k, j⟩
    | none => i.search tie steps (j - 1)

/-- The shortest decimal of the positive number `significand * 2 ^ exponent`. Seventeen digits
always suffice. -/
def shortest (tie : Tie) (significand : Nat) (exponent : Int) : Decimal :=
  let i := interval significand exponent
  i.search tie 17 i.decade

end Sqlwright.Number
