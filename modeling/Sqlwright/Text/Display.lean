import Sqlwright.Text.Hidden

/-!
# Displayed text

A text as a message shows it: between double quotes, with backslash escapes, and with every hidden
character written as its code point.
-/

namespace Sqlwright.Text

/-- The lower-case hexadecimal digits of a number, without leading zeros. -/
def hex (n : Nat) : List Char := Nat.toDigits 16 n

/-- One character as a display writes it. -/
def displayChar (c : Char) : List Char :=
  match c with
  | '\x00' => ['\\', '0']
  | '\t' => ['\\', 't']
  | '\r' => ['\\', 'r']
  | '\n' => ['\\', 'n']
  | '"' => ['\\', '"']
  | '\\' => ['\\', '\\']
  | c => if isHidden c then "\\u\x7b".toList ++ hex c.toNat ++ ['\x7d'] else [c]

/-- The text between double quotes, with its escapes. -/
def display (s : String) : String :=
  String.ofList ('"' :: (s.toList.flatMap displayChar ++ ['"']))

end Sqlwright.Text
