import Sqlwright.Number.Shortest

/-!
# Layout of floating-point text

How the digits of a number are set out: positionally or with an exponent, with or without the
places of a whole number. A `Layout` holds the decisions of one format.
-/

namespace Sqlwright.Number

/-- The decisions of one way to write floating-point numbers. `positional` says for which decimal
exponents (of the first digit) the number is written without an exponent. -/
structure Layout where
  tie : Tie
  positional : Int → Bool
  wholePlaces : List Char

/-- The decimal digits of a number. -/
def digits (n : Nat) : List Char := Nat.toDigits 10 n

/-- The digits without the zeros at their end, and how many there were. -/
def dropZeros (ds : List Char) : List Char × Nat :=
  let kept := (ds.reverse.dropWhile (· == '0')).reverse
  (kept, ds.length - kept.length)

/-- Digits whose first one counts `10 ^ decade`, with a decimal point. -/
def positionalText (wholePlaces ds : List Char) (decade : Int) : List Char :=
  if decade < 0 then
    "0.".toList ++ List.replicate ((-decade).toNat - 1) '0' ++ ds
  else
    let whole := decade.toNat + 1
    if ds.length ≤ whole then
      ds ++ List.replicate (whole - ds.length) '0' ++ wholePlaces
    else ds.take whole ++ '.' :: ds.drop whole

/-- Digits whose first one counts `10 ^ decade`, with a signed exponent. -/
def exponentText (ds : List Char) (decade : Int) : List Char :=
  let mantissa := match ds with
    | d :: [] => [d]
    | d :: rest => d :: '.' :: rest
    | [] => []
  let power := if decade < 0 then '-' :: digits (-decade).toNat else '+' :: digits decade.toNat
  mantissa ++ 'e' :: power

/-- The text of a number that is not negative. -/
def Layout.magnitude (l : Layout) (significand : Nat) (exponent : Int) : List Char :=
  if significand = 0 then positionalText l.wholePlaces ['0'] 0
  else
    let d := shortest l.tie significand exponent
    let all := digits d.digits
    let decade := d.exponent + (all.length : Int) - 1
    let ds := (dropZeros all).1
    if l.positional decade then positionalText l.wholePlaces ds decade
    else exponentText ds decade

/-- The text of a number: a minus for a set sign, and the names of what is no finite number. -/
def Layout.text (l : Layout) (x : Binary64) : String :=
  match x.view with
  | .nan => "NaN"
  | .infinite negative => if negative then "-inf" else "inf"
  | .finite negative m e =>
    String.ofList ((if negative then ['-'] else []) ++ l.magnitude m e)

/-- Always positional and without places for a whole number; of two equally near decimals the
larger. -/
def plain : Layout := ⟨.up, fun _ => true, []⟩

end Sqlwright.Number
