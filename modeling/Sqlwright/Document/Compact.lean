import Sqlwright.Document

/-!
# Compact text of a document

No blanks between the parts; members in their order; texts between double quotes with the short
escapes where there is one; floating-point numbers with the fewest digits that read back.
-/

namespace Sqlwright.Document

/-- Numbers are positional while the first digit counts between 10⁻⁵ and 10¹⁵, and whole ones keep
one place; of two equally near decimals the even one. -/
def numberLayout : Sqlwright.Number.Layout :=
  ⟨.even, fun decade => decide (-5 ≤ decade) && decide (decade ≤ 15), ['.', '0']⟩

/-- The text of a number. -/
def Number.text : Number → String
  | .int n => toString n.toInt
  | .uint n => toString n.toNat
  | .float x => numberLayout.text x

/-- One hexadecimal digit, in small letters. -/
def hexDigit (n : Nat) : Char := Nat.digitChar (n % 16)

/-- One character of a quoted text. -/
def escapeChar (c : Char) : List Char :=
  match c with
  | '"' => ['\\', '"']
  | '\\' => ['\\', '\\']
  | '\x08' => ['\\', 'b']
  | '\x0c' => ['\\', 'f']
  | '\n' => ['\\', 'n']
  | '\r' => ['\\', 'r']
  | '\t' => ['\\', 't']
  | c =>
    if c.toNat < 0x20 then ['\\', 'u', '0', '0', hexDigit (c.toNat / 16), hexDigit c.toNat]
    else [c]

/-- A text between double quotes. -/
def quoted (s : String) : String :=
  String.ofList ('"' :: (s.toList.flatMap escapeChar ++ ['"']))

mutual

/-- The text of a document. -/
def compact : Document → String
  | .null => "null"
  | .bool b => if b then "true" else "false"
  | .number n => n.text
  | .text s => quoted s
  | .list items => "[" ++ ",".intercalate (compactItems items) ++ "]"
  | .object members => "\x7b" ++ ",".intercalate (compactMembers members) ++ "\x7d"

/-- The texts of the items of a list. -/
def compactItems : List Document → List String
  | [] => []
  | d :: ds => compact d :: compactItems ds

/-- The texts of the members of an object. -/
def compactMembers : List (String × Document) → List String
  | [] => []
  | (key, d) :: ds => (quoted key ++ ":" ++ compact d) :: compactMembers ds

end

end Sqlwright.Document
