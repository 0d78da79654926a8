import Sqlwright.Document
import Sqlwright.Fault
import Sqlwright.Fragment
import Sqlwright.Stamp

/-!
# Assignments

The SET list of an UPDATE: each column is given a value, or changed by an amount. Before it is
written, the time column is stamped if asked for, and the primary key is taken out.
-/

namespace Sqlwright

/-- What happens to a column. -/
inductive Assignment where
  | set (value : Value)
  | increment (delta : Value)
  | decrement (delta : Value)
  deriving DecidableEq, Repr

/-- Assignments to distinct columns, in order. -/
abbrev Assignments := Keyed Assignment

namespace Assignment

/-- Reads what happens to a column. An object with one of the two markers is a change, any other
document is a value. -/
def read (column : String) : Document → Except Fault Assignment
  | .object members =>
    match Document.member? "increment" members, Document.member? "decrement" members with
    | some _, some _ => .error (.deltaConflict column)
    | some delta, none => .ok (.increment (.ofDocument delta))
    | none, some delta => .ok (.decrement (.ofDocument delta))
    | none, none => .ok (.set (.document (.object members)))
  | d => .ok (.set (.ofDocument d))

/-- The SET item of a column. -/
def fragment (column : String) : Assignment → Fragment
  | .set v => ⟨"?? = ?", [.text column, v]⟩
  | .increment delta => ⟨"?? = ?? + ?", [.text column, .text column, delta]⟩
  | .decrement delta => ⟨"?? = ?? - ?", [.text column, .text column, delta]⟩

end Assignment

/-- How an UPDATE treats its payload. -/
structure UpdateOptions where
  /-- Whether the time column is written. -/
  timestamps : Bool := false
  utimeField : String := "utime"
  utimeStamp : Stamp := .fixed .null
  /-- A column that is never written. -/
  primaryKey : Option String := none

namespace Assignments

/-- Every column of a row set to its value. -/
def ofRow (row : Row) : Assignments := row.mapValues .set

/-- Reads the members of a payload object. -/
def readMembers : List (String × Document) → Except Fault (List (String × Assignment))
  | [] => .ok []
  | (column, value) :: rest => do
    let a ← Assignment.read column value
    let as ← readMembers rest
    pure ((column, a) :: as)

/-- Reads a payload object. -/
def read : Document → Except Fault Assignments
  | .object members => (readMembers members).map Keyed.ofList
  | _ => .error .assignmentsShape

/-- The payload with the time column stamped. -/
def stamped (options : UpdateOptions) (values : Assignments) : Assignments :=
  if options.timestamps then
    values.insert options.utimeField (.set (options.utimeStamp.reading 0))
  else values

/-- The payload without the primary key. -/
def withoutKey (options : UpdateOptions) (values : Assignments) : Assignments :=
  match options.primaryKey with
  | some key => values.erase key
  | none => values

/-- What an UPDATE writes of a payload: it has to hold something both before and after the time
column and the primary key were dealt with. -/
def prepare (options : UpdateOptions) (values : Assignments) : Except Fault Assignments :=
  if values.isEmpty then .error .noUpdate
  else
    let prepared := (values.stamped options).withoutKey options
    if prepared.isEmpty then .error .noUpdateBesideKey else .ok prepared

/-- The SET clause. -/
def fragment (values : Assignments) : Except Fault Fragment :=
  if values.isEmpty then .error .noAssignments
  else
    .ok ((Fragment.join ", " (values.entries.map fun e => e.2.fragment e.1)).enclose "SET " "")

theorem fragment_eq_ok_iff {values : Assignments} {f : Fragment} :
    values.fragment = .ok f ↔ values.isEmpty = false ∧
      (Fragment.join ", " (values.entries.map fun e => e.2.fragment e.1)).enclose "SET " "" = f := by
  rw [fragment]
  cases values.isEmpty <;> simp

end Assignments

end Sqlwright
