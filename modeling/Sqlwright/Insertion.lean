import Sqlwright.Document
import Sqlwright.Fault
import Sqlwright.Fragment
import Sqlwright.Stamp

/-!
# Insertions

The rows of an INSERT. The first row fixes the columns and their order; every other row has to have
the same columns, in any order, and gives its values in the order of the first.
-/

namespace Sqlwright

/-- How an INSERT treats its rows. -/
structure InsertOptions where
  /-- Whether rows that break a key are skipped. -/
  ignore : Bool := false
  /-- Columns that are written when a row breaks a key. -/
  onDuplicate : Option Row := none
  /-- Whether rows that lack a time column get one. -/
  timestamps : Bool := false
  ctimeField : String := "ctime"
  utimeField : String := "utime"
  ctimeStamp : Stamp := .fixed .null
  utimeStamp : Stamp := .fixed .null

namespace Insertion

/-- Reads a row. -/
def readRow : Document → Except Fault Row
  | .object members => .ok (Keyed.ofList (members.map fun m => (m.1, Value.ofDocument m.2)))
  | _ => .error .rowShape

/-- Reads the rows of a list. -/
def readRows : List Document → Except Fault (List Row)
  | [] => .ok []
  | d :: rest => do
    let row ← readRow d
    let rows ← readRows rest
    pure (row :: rows)

/-- Reads rows: one object, or a list of objects. -/
def read : Document → Except Fault (List Row)
  | .object members => (readRow (.object members)).map fun row => [row]
  | .list items => readRows items
  | _ => .error .rowsShape

/-- Appends a time column to a row that lacks it, with the reading of a number; also the number of
the next reading. -/
def stampColumn (column : String) (stamp : Stamp) (next : Nat) (row : Row) : Row × Nat :=
  if row.contains column then (row, next)
  else (row.insert column (stamp.reading next), next + 1)

/-- Gives every row the time columns that it lacks, the time of creation first. The numbers are
those of the next readings. -/
def stampFrom (options : InsertOptions) (c u : Nat) : List Row → List Row
  | [] => []
  | row :: rows =>
    let created := stampColumn options.ctimeField options.ctimeStamp c row
    let updated := stampColumn options.utimeField options.utimeStamp u created.1
    updated.1 :: stampFrom options created.2 updated.2 rows

/-- The rows with their time columns, if these are asked for. -/
def stamped (options : InsertOptions) (rows : List Row) : List Row :=
  if options.timestamps then stampFrom options 0 0 rows else rows

/-- A row's values in the order of some columns, if these are all its columns. -/
def align? (columns : List String) (row : Row) : Option (List Value) :=
  if row.size = columns.length then columns.mapM row.get? else none

/-- The values of the rows from a number on, row by row in the order of the columns. -/
def alignFrom (columns : List String) (number : Nat) : List Row → Except Fault (List Value)
  | [] => .ok []
  | row :: rows =>
    match align? columns row with
    | none => .error (.rowMismatch number)
    | some values => do
      let others ← alignFrom columns (number + 1) rows
      pure (values ++ others)

/-- The clause that writes columns when a row breaks a key. -/
def duplicateFragment : Option Row → Fragment
  | none => .empty
  | some row =>
    if row.isEmpty then .empty
    else
      ⟨" ON DUPLICATE KEY UPDATE " ++ commaSeparated row.size "?? = ?",
        row.entries.flatMap fun e => [.text e.1, e.2]⟩

/-- The INSERT statement of rows. -/
def fragment (table : String) (options : InsertOptions) (rows : List Row) :
    Except Fault Fragment :=
  if rows.any Keyed.isEmpty then .error .noRows
  else match stamped options rows with
    | [] => .error .noRows
    | first :: others => do
      let columns := first.keys
      let values ← alignFrom columns 0 (first :: others)
      let group := "(" ++ commaSeparated columns.length "?" ++ ")"
      let duplicate := duplicateFragment options.onDuplicate
      pure ⟨"INSERT " ++ (if options.ignore then "IGNORE " else "") ++ "INTO ?? ("
          ++ commaSeparated columns.length "??" ++ ") VALUES "
          ++ commaSeparated (first :: others).length group ++ duplicate.sql,
        .text table :: columns.map .text ++ values ++ duplicate.params⟩

/-- An INSERT that is not refused has a first row, which fixes the columns, and a value for each of
them in every row. -/
theorem exists_of_fragment {table : String} {options : InsertOptions} {rows : List Row}
    {f : Fragment} (h : fragment table options rows = .ok f) :
    ∃ first others values, stamped options rows = first :: others ∧
      alignFrom first.keys 0 (first :: others) = .ok values ∧
      f = ⟨"INSERT " ++ (if options.ignore then "IGNORE " else "") ++ "INTO ?? ("
          ++ commaSeparated first.keys.length "??" ++ ") VALUES "
          ++ commaSeparated (first :: others).length
            ("(" ++ commaSeparated first.keys.length "?" ++ ")")
          ++ (duplicateFragment options.onDuplicate).sql,
        .text table :: first.keys.map .text ++ values
          ++ (duplicateFragment options.onDuplicate).params⟩ := by
  rw [fragment] at h
  split at h
  · cases h
  · split at h
    · cases h
    · rename_i first others hstamped
      dsimp only at h
      cases hvalues : alignFrom first.keys 0 (first :: others) with
      | error fault =>
        rw [hvalues] at h
        cases h
      | ok values =>
        rw [hvalues] at h
        exact ⟨first, others, values, hstamped, hvalues, (Except.ok.inj h).symm⟩

end Insertion

end Sqlwright
