import Sqlwright.Document
import Sqlwright.Keyed

/-!
# Reading documents

Reads a document from its text. Members keep their order; of a repeated key the last value counts,
at the place of the first. A number is classified by its spelling: a literal without point and
exponent is an integer as long as a signed or else an unsigned word of 64 bits can hold it.
-/

namespace Sqlwright.Document

open Sqlwright.Number (isDigit takeDigits ofDigits pow2)

/-- Drops the blanks between the parts of a document. -/
def skipBlanks (cs : List Char) : List Char :=
  cs.dropWhile fun c => c == ' ' || c == '\n' || c == '\r' || c == '\t'

/-- The value of a hexadecimal digit. -/
def hexValue? (c : Char) : Option Nat :=
  if isDigit c then some (c.toNat - '0'.toNat)
  else if 'a' ≤ c ∧ c ≤ 'f' then some (c.toNat - 'a'.toNat + 10)
  else if 'A' ≤ c ∧ c ≤ 'F' then some (c.toNat - 'A'.toNat + 10)
  else none

/-- The code unit that four hexadecimal digits spell. -/
def unit? (a b c d : Char) : Option Nat := do
  let a ← hexValue? a
  let b ← hexValue? b
  let c ← hexValue? c
  let d ← hexValue? d
  pure (((a * 16 + b) * 16 + c) * 16 + d)

/-- The character of a one-letter escape. -/
def shortEscape? : Char → Option Char
  | '"' => some '"'
  | '\\' => some '\\'
  | '/' => some '/'
  | 'b' => some '\x08'
  | 'f' => some '\x0c'
  | 'n' => some '\n'
  | 'r' => some '\r'
  | 't' => some '\t'
  | _ => none

/-- The rest of a quoted text, up to its closing quote. `high` holds the first half of a surrogate
pair whose second half is still due, `done` the characters read so far in reverse. -/
def readQuoted (high : Option Nat) (done : List Char) : List Char → Option (String × List Char)
  | [] => none
  | '\\' :: 'u' :: a :: b :: c :: d :: rest => do
    let n ← unit? a b c d
    match high with
    | some h =>
      if 0xDC00 ≤ n ∧ n ≤ 0xDFFF then
        readQuoted none (Char.ofNat (0x10000 + (h - 0xD800) * 0x400 + (n - 0xDC00)) :: done) rest
      else none
    | none =>
      if 0xD800 ≤ n ∧ n ≤ 0xDBFF then readQuoted (some n) done rest
      else if 0xDC00 ≤ n ∧ n ≤ 0xDFFF then none
      else readQuoted none (Char.ofNat n :: done) rest
  | c :: rest =>
    if high.isSome then none
    else if c = '"' then some (String.ofList done.reverse, rest)
    else if c.toNat < 0x20 then none
    else if c = '\\' then
      match rest with
      | [] => none
      | e :: rest => do readQuoted none ((← shortEscape? e) :: done) rest
    else readQuoted none (c :: done) rest

/-- Classifies a number by its spelling. -/
def classify (negative : Bool) (digits : List Char) (whole : Bool) (d : Decimal) : Number :=
  let n := ofDigits digits
  if whole ∧ negative ∧ n ≤ pow2 63 ∧ n ≠ 0 then .int (Int64.ofInt (-(n : Int)))
  else if whole ∧ !negative ∧ n < pow2 63 then .int (Int64.ofInt n)
  else if whole ∧ !negative ∧ n < pow2 64 then .uint (UInt64.ofNat n)
  else .float (d.toBinary Sqlwright.Number.double negative)

/-- Reads a number: no leading zeros, at least one digit on either side of a point. -/
def readNumber (cs : List Char) : Option (Number × List Char) := do
  let (negative, cs) := match cs with
    | '-' :: cs => (true, cs)
    | cs => (false, cs)
  let (digits, rest) := takeDigits cs
  guard (!digits.isEmpty && (digits.length == 1 || digits.head? != some '0'))
  let (places, rest) ← match rest with
    | '.' :: rest =>
      let (places, rest) := takeDigits rest
      if places.isEmpty then none else some (some places, rest)
    | rest => some (none, rest)
  let (power, rest) ← match rest with
    | c :: rest =>
      if c = 'e' ∨ c = 'E' then
        let (down, rest) := Sqlwright.Number.takeSign rest
        let (ds, rest) := takeDigits rest
        if ds.isEmpty then none
        else some (some (if down then -(ofDigits ds : Int) else (ofDigits ds : Int)), rest)
      else some (none, c :: rest)
    | [] => some (none, [])
  let ps := places.getD []
  let decimal : Decimal := ⟨ofDigits (digits ++ ps), power.getD 0 - (ps.length : Int)⟩
  pure (classify negative digits (places.isNone && power.isNone) decimal, rest)

mutual

/-- Reads a document at the front of a text. Every call uses up fuel, and the text's length is
enough of it. -/
def readValue : Nat → List Char → Option (Document × List Char)
  | 0, _ => none
  | fuel + 1, cs =>
    match skipBlanks cs with
    | 'n' :: 'u' :: 'l' :: 'l' :: rest => some (.null, rest)
    | 't' :: 'r' :: 'u' :: 'e' :: rest => some (.bool true, rest)
    | 'f' :: 'a' :: 'l' :: 's' :: 'e' :: rest => some (.bool false, rest)
    | '"' :: rest => (readQuoted none [] rest).map fun (s, rest) => (.text s, rest)
    | '[' :: rest =>
      match skipBlanks rest with
      | ']' :: rest => some (.list [], rest)
      | rest => (readItems fuel rest []).map fun (ds, rest) => (.list ds, rest)
    | '\x7b' :: rest =>
      match skipBlanks rest with
      | '\x7d' :: rest => some (.object [], rest)
      | rest => (readMembers fuel rest Keyed.empty).map fun (ms, rest) => (.object ms.entries, rest)
    | rest => (readNumber rest).map fun (n, rest) => (.number n, rest)

/-- Reads the remaining items of a list, after those in `done`. -/
def readItems : Nat → List Char → List Document → Option (List Document × List Char)
  | 0, _, _ => none
  | fuel + 1, cs, done =>
    match readValue fuel cs with
    | none => none
    | some (d, rest) =>
      match skipBlanks rest with
      | ',' :: rest => readItems fuel rest (d :: done)
      | ']' :: rest => some ((d :: done).reverse, rest)
      | _ => none

/-- Reads the remaining members of an object, after those in `done`. -/
def readMembers : Nat → List Char → Keyed Document → Option (Keyed Document × List Char)
  | 0, _, _ => none
  | fuel + 1, cs, done =>
    match skipBlanks cs with
    | '"' :: rest =>
      match readQuoted none [] rest with
      | none => none
      | some (key, rest) =>
        match skipBlanks rest with
        | ':' :: rest =>
          match readValue fuel rest with
          | none => none
          | some (d, rest) =>
            match skipBlanks rest with
            | ',' :: rest => readMembers fuel rest (done.insert key d)
            | '\x7d' :: rest => some (done.insert key d, rest)
            | _ => none
        | _ => none
    | _ => none

end

/-- Reads a text that holds one document and blanks around it. -/
def read? (s : String) : Option Document :=
  let cs := s.toList
  match readValue (2 * cs.length + 2) cs with
  | some (d, rest) => if (skipBlanks rest).isEmpty then some d else none
  | none => none

end Sqlwright.Document
