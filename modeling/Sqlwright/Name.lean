/-!
# Names

Table, column and label names mostly travel as parameters. A name that is put into the text itself
is either cut down to a safe alphabet, or a wildcard of one table (`u.*`), or quoted.
-/

namespace Sqlwright

namespace Name

/-- The letters of ASCII. -/
def isLetter (c : Char) : Bool :=
  (decide ('a' ≤ c) && decide (c ≤ 'z')) || (decide ('A' ≤ c) && decide (c ≤ 'Z'))

/-- Letters, digits and the underscore. -/
def isWordChar (c : Char) : Bool :=
  isLetter c || (decide ('0' ≤ c) && decide (c ≤ '9')) || c == '_'

/-- What a column name may hold in the text of a statement. -/
def isColumnChar (c : Char) : Bool := isWordChar c || c == '.'

/-- A column name without the characters that its place in the text does not allow. -/
def sanitize (column : String) : String := String.ofList (column.toList.filter isColumnChar)

/-- A sanitized name keeps to the alphabet of column names. -/
theorem isColumnChar_of_mem_sanitize {column : String} {c : Char}
    (h : c ∈ (sanitize column).toList) : isColumnChar c = true := by
  rw [sanitize, String.toList_ofList] at h
  exact (List.mem_filter.1 h).2

/-- Whether the rest of a name is word characters and then `.*`. -/
def endsAsWildcard : List Char → Bool
  | ['.', '*'] => true
  | c :: cs => isWordChar c && endsAsWildcard cs
  | [] => false

/-- Whether a name is the wildcard of one table: a word that starts with no digit, then `.*`. -/
def isDottedWildcard (name : String) : Bool :=
  match name.toList with
  | c :: cs => (isLetter c || c == '_') && endsAsWildcard cs
  | [] => false

/-- One character of a quoted name: the quote is doubled, and a dot parts two quoted names. -/
def quoteChar (c : Char) : List Char :=
  if c = '\x60' then ['\x60', '\x60'] else if c = '.' then ['\x60', '.', '\x60'] else [c]

/-- A name between backticks, each of its dotted parts on its own. -/
def quote (name : String) : String :=
  String.ofList ('\x60' :: (name.toList.flatMap quoteChar ++ ['\x60']))

end Name

/-- A table as a statement refers to it. -/
structure TableRef where
  name : String
  label : Option String
  deriving DecidableEq, Repr

namespace TableRef

/-- The part of a text before its first space. -/
def firstWord (cs : List Char) : List Char := cs.takeWhile (· != ' ')

/-- The part of a text behind its first space. -/
def afterSpace (cs : List Char) : List Char := (cs.dropWhile (· != ' ')).drop 1

/-- A text, unless it is empty. -/
def nonEmpty? (s : String) : Option String := if s = "" then none else some s

/-- Reads a table text. An explicit label wins, and the text is then the name as it stands; else
the second word is the label. -/
def read (table : String) (label : Option String) : TableRef :=
  match label.bind nonEmpty? with
  | some a => ⟨table, some a⟩
  | none =>
    ⟨String.ofList (firstWord table.toList),
      nonEmpty? (String.ofList (firstWord (afterSpace table.toList)))⟩

end TableRef

end Sqlwright
