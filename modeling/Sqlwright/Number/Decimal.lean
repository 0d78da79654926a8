import Sqlwright.Number.Binary

/-!
# Reading decimal numbers

A decimal is a natural number of digits and a power of ten. Reading one as a binary number of a
format gives the nearest such number; beyond the largest it gives an infinity.
-/

namespace Sqlwright

/-- The number `digits * 10 ^ exponent`. -/
structure Decimal where
  digits : Nat
  exponent : Int
  deriving DecidableEq, Repr

namespace Number

/-- Whether a character is one of the ten digits. -/
def isDigit (c : Char) : Bool := decide ('0' ≤ c) && decide (c ≤ '9')

/-- The value of a digit. -/
def digitValue (c : Char) : Nat := c.toNat - '0'.toNat

/-- The natural number that a run of digits spells. -/
def ofDigits (cs : List Char) : Nat := cs.foldl (fun n c => 10 * n + digitValue c) 0

/-- The digits at the front of a text, and what follows them. -/
def takeDigits (cs : List Char) : List Char × List Char :=
  (cs.takeWhile isDigit, cs.dropWhile isDigit)

/-- Splits off a sign; the flag is true for a minus. -/
def takeSign : List Char → Bool × List Char
  | '-' :: cs => (true, cs)
  | '+' :: cs => (false, cs)
  | cs => (false, cs)

/-- The exponent part of a number: `e` or `E`, an optional sign and at least one digit. -/
def readExponent : List Char → Option Int
  | [] => some 0
  | c :: cs =>
    if c = 'e' ∨ c = 'E' then
      let (negative, ds) := takeSign cs
      if ds.isEmpty || !ds.all isDigit then none
      else if negative then some (-(ofDigits ds : Int)) else some (ofDigits ds : Int)
    else none

end Number

open Number

/-- Reads an unsigned decimal: digits with an optional point among or beside them, then an
optional exponent. -/
def Decimal.read? (cs : List Char) : Option Decimal :=
  let (whole, rest) := takeDigits cs
  let (places, rest) := match rest with
    | '.' :: rest => takeDigits rest
    | rest => ([], rest)
  if whole.isEmpty && places.isEmpty then none
  else (readExponent rest).map fun e => ⟨ofDigits (whole ++ places), e - (places.length : Int)⟩

/-- How many digits a positive number is written with. -/
def Number.width (n : Nat) : Nat := (Nat.toDigits 10 n).length

/-- The nearest number of a format, with a sign. Decimals far outside every format are settled by
their magnitude alone. -/
def Decimal.toBinary (f : Format) (negative : Bool) (d : Decimal) : Binary64 :=
  let magnitude : Int := d.exponent + (width d.digits : Int)
  if d.digits = 0 ∨ magnitude < -400 then Binary64.ofScaled negative 0 0
  else if 400 < magnitude then Binary64.infinity negative
  else
    let ratio := if 0 ≤ d.exponent then (d.digits * pow10 d.exponent.toNat, 1)
      else (d.digits, pow10 (-d.exponent).toNat)
    match f.round ratio.1 ratio.2 with
    | some (m, e) => Binary64.ofScaled negative m e
    | none => Binary64.infinity negative

/-- The text with its ASCII capitals made small. -/
def Number.small (cs : List Char) : List Char := cs.map Char.toLower

/-- Reads a floating-point text: a decimal, or a name of infinity or of no number in any case of
letters, each after an optional sign. -/
def Binary64.read? (f : Format) (s : String) : Option Binary64 :=
  let (negative, cs) := takeSign s.toList
  let word := small cs
  if word = "inf".toList ∨ word = "infinity".toList then some (Binary64.infinity negative)
  else if word = "nan".toList then some (Binary64.nan negative)
  else (Decimal.read? cs).map (Decimal.toBinary f negative)

end Sqlwright
