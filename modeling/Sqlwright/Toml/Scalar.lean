import Sqlwright.Toml

/-!
# TOML scalars without quotes

Booleans, integers, floating-point numbers, dates and times. Digits may be grouped by single
underscores, each between two digits. A number that is spelled right and has no value is a scalar
all the same.
-/

namespace Sqlwright.Toml

open Sqlwright.Number (isDigit ofDigits takeSign pow2)

/-- Whether a mark stands only between digits in a text behind the character `before`. -/
def isBetween (digit : Char → Bool) (mark before : Char) : List Char → Bool
  | [] => true
  | c :: rest =>
    (c != mark || (digit before && rest.head?.any digit)) && isBetween digit mark c rest

/-- Whether the underscores of a number are in place. A sign in front of it counts as a digit. -/
def isGrouped (digit : Char → Bool) : List Char → Bool
  | '-' :: cs | '+' :: cs => isBetween digit '_' '0' cs
  | cs => isBetween digit '_' '_' cs

/-- A number without its underscores. -/
def ungroup (cs : List Char) : List Char := cs.filter (· != '_')

/-- The value of a digit of a base up to sixteen, if it is one. -/
def baseDigit? (base : Nat) (c : Char) : Option Nat :=
  let v :=
    if isDigit c then c.toNat - '0'.toNat
    else if 'a' ≤ c ∧ c ≤ 'f' then c.toNat - 'a'.toNat + 10
    else if 'A' ≤ c ∧ c ≤ 'F' then c.toNat - 'A'.toNat + 10
    else base
  if v < base then some v else none

/-- Whether a character is a digit of a base. -/
def isBaseDigit (base : Nat) (c : Char) : Bool := (baseDigit? base c).isSome

/-- The number that some digits of a base spell. -/
def ofBase (base : Nat) (cs : List Char) : Nat :=
  cs.foldl (fun n c => base * n + (baseDigit? base c).getD 0) 0

/-- Whether an integer fits into a word of 128 bits, signed or not. -/
def inRange (n : Int) : Bool := decide (-(pow2 127) ≤ n) && decide (n < pow2 128)

/-- An integer, if it is in range. -/
def ofInt (n : Int) : Toml := if inRange n then .integer n else .unreadable

/-- Reads an integer of a base behind the letter that names the base. Its digits may be missing; it
has no value then. -/
def readBased? (base : Nat) (cs : List Char) : Option Toml :=
  let ds := ungroup cs
  if !isGrouped (isBaseDigit base) cs || !ds.all (isBaseDigit base) then none
  else if ds.isEmpty then some .unreadable
  else some (ofInt (ofBase base ds))

/-- Whether a character is a point or the letter in front of an exponent. -/
def isFloatMark (c : Char) : Bool := c == '.' || c == 'e' || c == 'E'

/-- Whether a text is spelled like a decimal integer: digits without a leading zero. Behind the
first underscore only the characters beside underscores are looked at, and may be digits of any
base. -/
def isWhole (cs : List Char) : Bool :=
  let body := (takeSign cs).2
  match body.dropWhile isDigit with
  | [] => body == ['0'] || (!body.isEmpty && body.head? != some '0')
  | '_' :: _ =>
    body.head? != some '0' && !body.any isFloatMark && isGrouped (isBaseDigit 16) cs
  | _ => false

/-- Reads an integer. -/
def readInteger? (cs : List Char) : Option Toml :=
  match cs with
  | '0' :: 'x' :: ds => readBased? 16 ds
  | '0' :: 'o' :: ds => readBased? 8 ds
  | '0' :: 'b' :: ds => readBased? 2 ds
  | cs =>
    let (negative, body) := takeSign cs
    let ds := ungroup body
    if !isWhole cs then none
    else if !ds.all isDigit then some .unreadable
    else some (ofInt (if negative then -(ofDigits ds : Int) else ofDigits ds))

/-- Reads a floating-point number: digits without a leading zero, then a point with digits on both
sides of it, an exponent, or both. One that is too large has no value. -/
def readFloat? (cs : List Char) : Option Toml :=
  let (negative, body) := takeSign cs
  let leadingZero := body.head? == some '0' && !(body.drop 1).head?.any isFloatMark
  if body = "inf".toList then some (.float (Binary64.infinity negative))
  else if body = "nan".toList then some (.float (Binary64.nan negative))
  else if leadingZero || !isGrouped isDigit cs || !isBetween isDigit '.' '.' body then none
  else (Decimal.read? (ungroup body)).map fun d =>
    let x := d.toBinary Sqlwright.Number.double negative
    match x.view with
    | .finite _ _ _ => .float x
    | _ => .unreadable

/-- The number that exactly so many digits spell, and what follows. -/
def fixedDigits? (count : Nat) (cs : List Char) : Option (Nat × List Char) :=
  let ds := cs.take count
  if ds.length = count ∧ ds.all isDigit then some (ofDigits ds, cs.drop count) else none

/-- Whether a year of the Gregorian calendar is a leap year. -/
def isLeap (year : Nat) : Bool :=
  decide (year % 4 = 0) && (decide (year % 100 ≠ 0) || decide (year % 400 = 0))

/-- The days of a month. -/
def daysIn (year month : Nat) : Nat :=
  if month = 2 then (if isLeap year then 29 else 28)
  else if month = 4 ∨ month = 6 ∨ month = 9 ∨ month = 11 then 30
  else 31

/-- Reads a date at the front; gives what follows. -/
def afterDate? (cs : List Char) : Option (List Char) := do
  let (year, cs) ← fixedDigits? 4 cs
  let '-' :: cs := cs | none
  let (month, cs) ← fixedDigits? 2 cs
  let '-' :: cs := cs | none
  let (day, cs) ← fixedDigits? 2 cs
  if 1 ≤ month ∧ month ≤ 12 ∧ 1 ≤ day ∧ day ≤ daysIn year month then some cs else none

/-- Reads a time at the front; gives what follows. The seconds may be left out. -/
def afterTime? (cs : List Char) : Option (List Char) := do
  let (hour, cs) ← fixedDigits? 2 cs
  let ':' :: cs := cs | none
  let (minute, cs) ← fixedDigits? 2 cs
  if 23 < hour ∨ 59 < minute then none
  else match cs with
    | ':' :: cs => do
      let (second, cs) ← fixedDigits? 2 cs
      if 60 < second then none
      else match cs with
        | '.' :: cs =>
          if (cs.takeWhile isDigit).isEmpty then none else some (cs.dropWhile isDigit)
        | cs => some cs
    | cs => some cs

/-- Whether a text is a zone: `Z`, or hours and minutes with a sign. -/
def isZone (cs : List Char) : Bool :=
  match cs with
  | ['Z'] | ['z'] => true
  | [sign, a, b, ':', c, d] =>
    (sign == '+' || sign == '-') && [a, b, c, d].all isDigit
      && decide (ofDigits [a, b] ≤ 23) && decide (ofDigits [c, d] ≤ 59)
  | _ => false

/-- Whether a text is a date, a time, or a date and a time with or without a zone. -/
def isMoment (cs : List Char) : Bool :=
  match afterDate? cs with
  | some [] => true
  | some (c :: rest) =>
    (c == 'T' || c == 't' || c == ' ') &&
      (match afterTime? rest with
        | some zone => zone.isEmpty || isZone zone
        | none => false)
  | none => (afterTime? cs).any List.isEmpty

/-- Reads a scalar without quotes. -/
def readScalar? (cs : List Char) : Option Toml :=
  if cs = "true".toList then some (.boolean true)
  else if cs = "false".toList then some (.boolean false)
  else if isMoment cs then some (.moment (String.ofList cs))
  else (readInteger? cs).or (readFloat? cs)

end Sqlwright.Toml
