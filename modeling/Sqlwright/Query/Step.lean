import Sqlwright.Assignment
import Sqlwright.Condition.Predicate
import Sqlwright.Condition.Reading
import Sqlwright.Execution
import Sqlwright.Insertion
import Sqlwright.Query.Stage
import Sqlwright.SelectList

/-!
# Calls and the clauses they add

A statement is opened by a `Start` and continued by `Step`s. Each adds at most a clause to a slot;
which, is a function of its arguments alone, apart from whether an empty condition is refused.
-/

namespace Sqlwright

/-- An argument that is ready, or a document that the call reads itself. -/
inductive Input (α : Type) where
  | ready (value : α)
  | document (d : Document)

/-- The argument, read if it is a document. -/
def Input.resolve {α : Type} (read : Document → Except Fault α) : Input α → Except Fault α
  | .ready a => .ok a
  | .document d => read d

/-- The flavours of a join. -/
inductive JoinKind where
  | inner
  | left
  | right
  | full
  deriving DecidableEq, Repr

/-- The word of a join. -/
def JoinKind.word : JoinKind → String
  | .inner => "INNER"
  | .left => "LEFT"
  | .right => "RIGHT"
  | .full => "FULL"

/-- The directions of an order. -/
inductive Direction where
  | ascending
  | descending
  deriving DecidableEq, Repr

/-- The word of a direction. -/
def Direction.word : Direction → String
  | .ascending => "ASC"
  | .descending => "DESC"

/-- One entry of an order. -/
structure OrderItem where
  field : String
  direction : Direction := .ascending
  deriving DecidableEq, Repr

namespace OrderItem

/-- Reads a direction: its word, or an object whose only member is that word with null. -/
def readDirection? : Document → Option Direction
  | .text "ASC" | .object [("ASC", .null)] => some .ascending
  | .text "DESC" | .object [("DESC", .null)] => some .descending
  | _ => none

/-- Reads an entry of an order: an object with a field and perhaps a direction. -/
def read? : Document → Option OrderItem
  | .object members =>
    match Document.member? "field" members with
    | some (.text field) =>
      match Document.member? "direction" members with
      | none => some ⟨field, .ascending⟩
      | some d => (readDirection? d).map fun direction => ⟨field, direction⟩
    | _ => none
  | _ => none

end OrderItem

/-- The functions of a column over all rows. -/
inductive Aggregate where
  | max
  | min
  | avg
  | sum
  deriving DecidableEq, Repr

/-- The name of a function. -/
def Aggregate.word : Aggregate → String
  | .max => "MAX"
  | .min => "MIN"
  | .avg => "AVG"
  | .sum => "SUM"

/-- The calls that open a statement. -/
inductive Start where
  | select (fields : Input SelectList)
  | count (field : String) (label : Option String)
  | aggregate (function : Aggregate) (field : String) (label : Option String)
  | update (table : String)
  | updateWith (table : String) (values : Input Assignments) (options : UpdateOptions)
  | insert (table : String) (rows : Input (List Row)) (options : InsertOptions)
  | deleteFrom (table : String)

/-- The calls that continue a statement. -/
inductive Step where
  | source (table : String) (label : Option String)
  | join (kind : JoinKind) (table : String) (label : Option String) (criterion : String)
  | set (values : Input Assignments)
  | filter (condition : Input Condition.Tree)
  | group (fields : List String)
  | order (items : List OrderItem)
  | limit (count : Option UInt64)
  | offset (count : Option UInt64)
  | rebind (executor : Executor)

/-- The kind of a step. -/
def Step.kind : Step → StepKind
  | .source _ _ => .source
  | .join _ _ _ _ => .join
  | .set _ => .set
  | .filter _ => .filter
  | .group _ => .group
  | .order _ => .order
  | .limit _ => .limit
  | .offset _ => .offset
  | .rebind _ => .rebind

/-- A clause together with its slot. -/
abbrev Clause := Slot × Fragment

/-- Refuses a table name that is blank. -/
def requireTable (use : Fault.TableUse) (table : String) : Except Fault Unit :=
  if Text.isBlankText table then .error (.tableRequired use) else .ok ()

/-- A table in the place of a FROM or JOIN. -/
def TableRef.fragment (r : TableRef) : Fragment :=
  match r.label with
  | some label => ⟨"?? AS ??", [.text r.name, .text label]⟩
  | none => ⟨"??", [.text r.name]⟩

/-- A fragment with a label behind it, if one is given. -/
def Fragment.withLabel (f : Fragment) (label : Option String) : Fragment :=
  match label.bind TableRef.nonEmpty? with
  | some a => ⟨f.sql ++ " AS ??", f.params ++ [.text a]⟩
  | none => f

/-- The head of a count: of all rows, or of the rows where a field has a value. -/
def countFragment (field : String) : Fragment :=
  if field = "" ∨ field = "*" then ⟨"SELECT COUNT(*)", []⟩
  else ⟨"SELECT COUNT(??)", [.text field]⟩

/-- The clauses of an opening call. -/
def Start.clauses : Start → Except Fault (List Clause)
  | .select fields => do
    let fields ← fields.resolve SelectList.read
    pure [(.select, fields.fragment)]
  | .count field label => .ok [(.count, (countFragment field).withLabel label)]
  | .aggregate function field label =>
    .ok [(.select,
      (⟨"SELECT " ++ function.word ++ "(??)", [.text field]⟩ : Fragment).withLabel label)]
  | .update table => do
    requireTable .update table
    pure [(.update, ⟨"UPDATE ??", [.text table]⟩)]
  | .updateWith table values options => do
    requireTable .update table
    let values ← values.resolve Assignments.read
    let prepared ← values.prepare options
    let set ← prepared.fragment
    pure [(.update, ⟨"UPDATE ??", [.text table]⟩), (.set, set)]
  | .insert table rows options => do
    requireTable .insert table
    let rows ← rows.resolve Insertion.read
    let fragment ← Insertion.fragment table options rows
    pure [(.insert, fragment)]
  | .deleteFrom table => do
    requireTable .delete table
    pure [(.delete, ⟨"DELETE FROM ??", [.text table]⟩)]

/-- The stage after an opening call. -/
def Start.stage : Start → Stage
  | .select _ | .count _ _ | .aggregate _ _ _ => .projected
  | .update _ => .updating
  | .updateWith _ _ _ => .assigned
  | .insert _ _ _ => .inserted
  | .deleteFrom _ => .deleting

/-- The WHERE clause of a condition. One that says nothing adds no clause, and is refused where
the statement is guarded. -/
def filterClause (guarded : Bool) (tree : Condition.Tree) : Except Fault (Option Clause) := do
  let predicate ← Condition.predicate .and tree
  if predicate.isBlank then
    if guarded then .error .unfiltered else pure none
  else pure (some (.filter, predicate.enclose "WHERE " ""))

/-- The clause that a step adds, if any. -/
def Step.clause? (guarded : Bool) : Step → Except Fault (Option Clause)
  | .source table label => do
    requireTable .source table
    pure (some (.source, (TableRef.read table label).fragment.enclose "FROM " ""))
  | .join kind table label criterion => do
    requireTable .join table
    pure (some (.join,
      (TableRef.read table label).fragment.enclose (kind.word ++ " JOIN ") (" ON " ++ criterion)))
  | .set values => do
    let values ← values.resolve Assignments.read
    let set ← values.fragment
    pure (some (.set, set))
  | .filter condition => do
    let tree ← condition.resolve Condition.readTree
    filterClause guarded tree
  | .group fields =>
    if fields.isEmpty then .ok none
    else .ok (some (.group,
      ⟨"GROUP BY " ++ commaSeparated fields.length "??", fields.map .text⟩))
  | .order items =>
    if items.isEmpty then .ok none
    else .ok (some (.order,
      ⟨"ORDER BY " ++ ", ".intercalate (items.map fun i => "?? " ++ i.direction.word),
        items.map fun i => .text i.field⟩))
  | .limit count => .ok (count.map fun n => (.limit, ⟨"LIMIT ?", [.uint n]⟩))
  | .offset count => .ok (count.map fun n => (.offset, ⟨"OFFSET ?", [.uint n]⟩))
  | .rebind _ => .ok none

end Sqlwright
