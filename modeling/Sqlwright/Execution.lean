import Sqlwright.Fault
import Sqlwright.Statement

/-!
# Execution

Statements are run by an executor of the caller's, which is given the statement and answers with
rows, with the outcome of a write, or with a fault. What a run leaves behind is its result and, in
order, the calls that reached the caller's executor and the events that were logged.
-/

namespace Sqlwright

/-- What a statement gave back. -/
inductive Output where
  | rows (rows : List Row)
  | write (affectedRows : UInt64) (insertId : Option UInt64)
  deriving DecidableEq, Repr

namespace Output

/-- The rows, of which a write has none. -/
def rowList : Output → List Row
  | .rows found => found
  | .write _ _ => []

/-- The first row. -/
def first? (o : Output) : Option Row := o.rowList.head?

/-- The number of rows written, or of rows given back. -/
def affectedRows : Output → Nat
  | .rows found => found.length
  | .write n _ => n.toNat

/-- The key that a write generated. -/
def insertId? : Output → Option UInt64
  | .rows _ => none
  | .write _ id => id

end Output

/-- How urgent an event is. -/
inductive Level where
  | trace
  | debug
  | info
  | warn
  | error
  deriving DecidableEq, Repr

/-- The name of a level. -/
def Level.label : Level → String
  | .trace => "TRACE"
  | .debug => "DEBUG"
  | .info => "INFO"
  | .warn => "WARN"
  | .error => "ERROR"

/-- The parts of the library that log. -/
inductive LogTarget where
  | statements
  | connections
  | tables
  deriving DecidableEq, Repr

/-- The name under which a part logs. -/
def LogTarget.label : LogTarget → String
  | .statements => "myorm.sql"
  | .connections => "myorm::registry"
  | .tables => "myorm::model"

/-- A logged event. -/
structure Event where
  level : Level
  target : LogTarget
  fields : List (String × String)
  deriving DecidableEq, Repr

/-- A statement that reached an executor of the caller's. -/
structure Call where
  executor : String
  statement : Statement
  deriving DecidableEq, Repr

/-- Something that a run does: it reaches an executor of the caller's, or it logs. -/
inductive Effect where
  | call (c : Call)
  | event (e : Event)
  deriving DecidableEq, Repr

namespace Effect

def call? : Effect → Option Call
  | .call c => some c
  | .event _ => none

def event? : Effect → Option Event
  | .call _ => none
  | .event e => some e

end Effect

/-- What running a statement leaves behind. -/
structure Run where
  result : Except Fault Output
  effects : List Effect

namespace Run

/-- The calls that reached an executor of the caller's. -/
def calls (r : Run) : List Call := r.effects.filterMap Effect.call?

/-- The events that were logged. -/
def events (r : Run) : List Event := r.effects.filterMap Effect.event?

end Run

/-- How a layer of logging shows statements. -/
structure LogLayer where
  connection : String := "default"
  level : Level := .debug
  /-- The greatest number of bytes that are shown of a statement. -/
  limit : Option Nat := some 200
  deriving DecidableEq, Repr

/-- An executor: one of the caller's, or a layer of logging around another. -/
inductive Executor where
  | base (name : String) (respond : Statement → Except Fault Output)
  | logged (layer : LogLayer) (inner : Executor)

end Sqlwright
