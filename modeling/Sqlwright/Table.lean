import Sqlwright.Query
import Sqlwright.Table.Config

/-!
# Operations on a described table

A table binds a description to a builder and offers the usual operations: finding, updating,
inserting, removing, patching one column, and flagging rows as deleted. Each is a program of calls
on the builder. Reads of one row and all changes require a condition; changes never write the
primary key.
-/

namespace Sqlwright

/-- A table with a description that can be used. -/
structure Table where
  config : TableConfig
  builder : Builder
  usable : config.fault? = none

/-- How rows are flagged as deleted. -/
structure SoftDeleteOptions where
  /-- The column of the flag, if it is not the shared one. -/
  deleteField : Option String := none
  update : UpdateOptions := {}

namespace Table

/-- Binds a description to an executor. -/
def ofConfig (config : TableConfig) (executor : Option Executor) : Except Fault Table :=
  match h : config.fault? with
  | some f => .error f
  | none => .ok ⟨config, ⟨executor⟩, h⟩

variable (t : Table)

/-- The options of an UPDATE with the shared time column and the table's primary key. -/
def updateOptions : UpdateOptions :=
  { utimeField := t.config.central.utime, primaryKey := some t.config.primaryKey }

/-- The options of an INSERT with the shared time columns. -/
def insertOptions : InsertOptions :=
  { ctimeField := t.config.central.ctime, utimeField := t.config.central.utime }

/-- A fault as the end of a program of calls. -/
def lift {α : Type} : Except Fault α → Except Refusal α
  | .ok a => .ok a
  | .error f => .error (.fault f)

/-- Reads a condition that has to have an entry. -/
def requireCondition (operation : String) (condition : Input Condition.Tree) :
    Except Refusal Condition.Tree := do
  let tree ← lift (condition.resolve Condition.readTree)
  if tree.isEmpty then .error (.fault (.conditionRequired t.config.name operation))
  else pure tree

/-- Reads a payload that has to have a column. -/
def requireData (operation : String) (data : Input Assignments) :
    Except Refusal Assignments := do
  let values ← lift (data.resolve Assignments.read)
  if values.isEmpty then .error (.fault (.dataRequired t.config.name operation))
  else pure values

/-- The step to the table itself. -/
def sourceStep : Step := .source t.config.name none

/-- The step to a condition that was read. -/
def filterStep (tree : Condition.Tree) : Step := .filter (.ready tree)

/-- Selects fields of all rows. -/
def select (fields : Input SelectList) : Except Refusal Query :=
  t.builder.build (.select fields) [t.sourceStep]

/-- Counts rows. -/
def count (field : String) (label : Option String) : Except Refusal Query :=
  t.builder.build (.count field label) [t.sourceStep]

/-- Finds the first row that meets a condition. -/
def findOne (fields : Input SelectList) (condition : Input Condition.Tree)
    (order : List OrderItem) : Except Refusal Query := do
  let tree ← t.requireCondition "FindOne" condition
  t.builder.build (.select fields)
    [t.sourceStep, filterStep tree, .order order, .limit (some 1)]

/-- Finds rows. A condition that is given has to have an entry, and an offset counts only beside a
limit. -/
def findAll (fields : Input SelectList) (condition : Option (Input Condition.Tree))
    (order : List OrderItem) (limit offset : Option UInt64) : Except Refusal Query := do
  let tree ← match condition with
    | some condition => t.requireCondition "FindAll" condition
    | none => pure []
  t.builder.build (.select fields)
    [t.sourceStep, filterStep tree, .order order, .limit limit,
     .offset (limit.bind fun _ => offset)]

/-- Updates the rows that meet a condition, and continues the statement by some steps. The primary
key of the options is that of the table, whatever they say. -/
def updateMatching (operation : String) (data : Input Assignments)
    (condition : Input Condition.Tree) (options : UpdateOptions) (steps : List Step) :
    Except Refusal Query := do
  let tree ← t.requireCondition operation condition
  let values ← t.requireData operation data
  t.builder.build
    (.updateWith t.config.name (.ready values)
      { options with primaryKey := some t.config.primaryKey })
    (filterStep tree :: steps)

/-- Updates one row. -/
def updateOne (data : Input Assignments) (condition : Input Condition.Tree)
    (options : UpdateOptions) : Except Refusal Query :=
  t.updateMatching "UpdateOne" data condition options [.limit (some 1)]

/-- Updates every row that meets a condition. -/
def updateAll (data : Input Assignments) (condition : Input Condition.Tree)
    (options : UpdateOptions) : Except Refusal Query :=
  t.updateMatching "UpdateAll" data condition options []

/-- Whether a column belongs to the table. -/
def isColumn (column : String) : Bool := decide (column ∈ t.config.columns)

/-- What is reported of a row that lost keys. -/
def removedEvent (number : Nat) (removed : List String) : Event :=
  let keys := ", ".intercalate removed
  ⟨.warn, .tables,
    [("table", t.config.name), ("removed", keys), ("row", toString number),
     ("message", Fault.ofTable t.config.name
       ("Removed unknown fields: " ++ keys ++ " from data[" ++ toString number ++ "]"))]⟩

/-- The reports on the rows from a number on, one for each row with a key that is no column. -/
def removedEvents (number : Nat) : List Row → List Event
  | [] => []
  | row :: rows =>
    let removed := row.keys.filter fun key => !t.isColumn key
    if removed.isEmpty then removedEvents (number + 1) rows
    else t.removedEvent number removed :: removedEvents (number + 1) rows

/-- Inserts rows without the keys that are no columns; gives the statement, and a report on each
row that lost a key. -/
def insertRecord (rows : Input (List Row)) (options : InsertOptions) :
    Except Refusal Query × List Event :=
  match rows.resolve Insertion.read with
  | .error f => (.error (.fault f), [])
  | .ok rows =>
    if rows.all Keyed.isEmpty then
      (.error (.fault (.dataRequired t.config.name "Create")), [])
    else
      (t.builder.build
        (.insert t.config.name (.ready (rows.map fun row => row.filterKeys t.isColumn)) options)
        [],
       t.removedEvents 0 rows)

/-- Removes one row. -/
def removeOne (condition : Input Condition.Tree) (order : List OrderItem) :
    Except Refusal Query := do
  let tree ← t.requireCondition "RemoveOne" condition
  t.builder.build (.deleteFrom t.config.name)
    [filterStep tree, .order order, .limit (some 1)]

/-- Removes every row that meets a condition. -/
def remove (condition : Input Condition.Tree) : Except Refusal Query := do
  let tree ← t.requireCondition "Remove" condition
  t.builder.build (.deleteFrom t.config.name) [filterStep tree]

/-- The payload that sets one column. -/
def single (field : String) (value : Value) : Input Assignments :=
  .ready (Keyed.empty.insert field (.set value))

/-- Sets one column of every row that meets a condition. -/
def patchSingleField (field : String) (value : Value) (condition : Input Condition.Tree)
    (options : UpdateOptions) : Except Refusal Query :=
  if Text.isBlankText field then .error (.fault (.patchFieldRequired t.config.name))
  else t.updateMatching "PatchSingleField" (single field value) condition options []

/-- The column that flags a row as deleted. -/
def deleteField (options : SoftDeleteOptions) : String :=
  options.deleteField.getD t.config.central.isDeleted

/-- Flags one row as deleted. -/
def softDeleteOne (condition : Input Condition.Tree) (value : Value)
    (options : SoftDeleteOptions) : Except Refusal Query :=
  t.updateMatching "SoftDeleteOne" (single (t.deleteField options) value) condition
    options.update [.limit (some 1)]

/-- Flags every row that meets a condition as deleted. -/
def softDelete (condition : Input Condition.Tree) (value : Value)
    (options : SoftDeleteOptions) : Except Refusal Query :=
  t.updateMatching "SoftDelete" (single (t.deleteField options) value) condition
    options.update []

end Table

end Sqlwright
