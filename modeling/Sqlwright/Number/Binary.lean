/-!
# Binary floating-point numbers

A 64-bit floating-point number is its bit pattern. `Format.round` takes a fraction of naturals to
the nearest number of a binary format, ties to the even significand; numbers of a narrower format
are numbers of the wide one.
-/

namespace Sqlwright

/-- A floating-point number of 64 bits, as its bit pattern. -/
structure Binary64 where
  bits : UInt64
  deriving DecidableEq, Repr

namespace Number

/-- Two to a power. -/
def pow2 (n : Nat) : Nat := Nat.pow 2 n

/-- Ten to a power. -/
def pow10 (n : Nat) : Nat := Nat.pow 10 n

/-- A binary format: its numbers are `m * 2 ^ e` with `m < 2 ^ precision` and
`minExponent ≤ e ≤ maxExponent`. -/
structure Format where
  precision : Nat
  minExponent : Int
  maxExponent : Int

/-- The format of 64 bits. -/
def double : Format := ⟨53, -1074, 971⟩

/-- The format of 32 bits. -/
def single : Format := ⟨24, -149, 104⟩

/-- The nearest natural to `num / den`, a half to the even neighbour. -/
def roundQuotient (num den : Nat) : Nat :=
  let q := num / den
  let r := num % den
  if 2 * r < den then q
  else if 2 * r = den then q + q % 2
  else q + 1

/-- The fraction `num / den` over `2 ^ e`. -/
def scale (num den : Nat) (e : Int) : Nat × Nat :=
  if 0 ≤ e then (num, den * pow2 e.toNat) else (num * pow2 (-e).toNat, den)

/-- The nearest number of the format to `num / den`, as significand and exponent; `none` when it
lies beyond the largest. -/
def Format.round (f : Format) (num den : Nat) : Option (Nat × Int) :=
  if num = 0 then some (0, f.minExponent)
  else
    let guess : Int := (num.log2 : Int) - (den.log2 : Int) - (f.precision : Int)
    let (n, d) := scale num den guess
    let tight := if d * pow2 f.precision ≤ n then guess + 1 else guess
    let e := max f.minExponent tight
    let (n, d) := scale num den e
    let m := roundQuotient n d
    let (m, e) := if m = pow2 f.precision then (pow2 (f.precision - 1), e + 1) else (m, e)
    if f.maxExponent < e then none else some (m, e)

end Number

namespace Binary64

open Number (pow2)

/-- What a bit pattern denotes. -/
inductive View where
  | nan
  | infinite (negative : Bool)
  | finite (negative : Bool) (significand : Nat) (exponent : Int)
  deriving DecidableEq, Repr

/-- Reads a bit pattern: a sign bit, eleven exponent bits and fifty-two fraction bits. -/
def view (x : Binary64) : View :=
  let n := x.bits.toNat
  let negative := decide (pow2 63 ≤ n)
  let field : Nat := n / pow2 52 % pow2 11
  let fraction : Nat := n % pow2 52
  if field = 2047 then if fraction = 0 then .infinite negative else .nan
  else if field = 0 then .finite negative fraction (-1074)
  else .finite negative (pow2 52 + fraction) ((field : Int) - 1075)

/-- The pattern with the given sign and magnitude bits. -/
def ofParts (negative : Bool) (magnitude : Nat) : Binary64 :=
  ⟨UInt64.ofNat ((if negative then pow2 63 else 0) + magnitude)⟩

/-- Not a number. -/
def nan (negative : Bool) : Binary64 := ofParts negative (2047 * pow2 52 + pow2 51)

/-- The infinity of a sign. -/
def infinity (negative : Bool) : Binary64 := ofParts negative (2047 * pow2 52)

/-- The pattern of `significand * 2 ^ exponent`, for a significand below `2 ^ 53` and an exponent
of the format. A short significand is first shifted up as far as the exponent allows. -/
def ofScaled (negative : Bool) (significand : Nat) (exponent : Int) : Binary64 :=
  if significand = 0 then ofParts negative 0
  else
    let shift := min (52 - significand.log2) (exponent + 1074).toNat
    let m := significand * pow2 shift
    let e := exponent - (shift : Int)
    if m < pow2 52 then ofParts negative m
    else ofParts negative ((e + 1075).toNat * pow2 52 + (m - pow2 52))

end Binary64

end Sqlwright
