import Sqlwright.Document.Compact
import Sqlwright.Value

/-!
# Literals

A value as it is written into a statement that is only shown, never run.
-/

namespace Sqlwright

namespace Literal

/-- One character of a quoted text. -/
def escapeChar (c : Char) : List Char :=
  match c with
  | '\x00' => ['\\', '0']
  | '\x08' => ['\\', 'b']
  | '\t' => ['\\', 't']
  | '\n' => ['\\', 'n']
  | '\r' => ['\\', 'r']
  | '\x1a' => ['\\', 'Z']
  | '"' => ['\\', '"']
  | '\'' => ['\\', '\'']
  | '\\' => ['\\', '\\']
  | c => [c]

/-- A text between single quotes. -/
def quote (s : String) : String :=
  String.ofList ('\'' :: (s.toList.flatMap escapeChar ++ ['\'']))

/-- The two hexadecimal digits of an octet. -/
def octetDigits (b : UInt8) : List Char :=
  [Nat.digitChar (b.toNat / 16), Nat.digitChar (b.toNat % 16)]

/-- The hexadecimal digits of octets. -/
def hexText (octets : List UInt8) : String := String.ofList (octets.flatMap octetDigits)

end Literal

open Literal in
/-- The literal of a value. -/
def Value.literal : Value → String
  | .null => "NULL"
  | .bool b => if b then "true" else "false"
  | .int n => toString n.toInt
  | .uint n => toString n.toNat
  | .float x => Number.plain.text x
  | .text s => quote s
  | .bytes octets => "X'" ++ hexText octets ++ "'"
  | .dateTime t => quote t.text
  | .document d => quote d.compact

end Sqlwright
