import Sqlwright.Table

/-!
# Named connections

A registry keeps executors under names. A connection that was handed out keeps its executor, also
after its name was given to another or removed.
-/

namespace Sqlwright

/-- An executor under a name. -/
structure Connection where
  name : String
  executor : Executor

namespace Connection

/-- A connection; a verbose one logs every statement under its name. -/
def ofExecutor (name : String) (executor : Executor) (verbose : Bool := true) : Connection :=
  ⟨name, if verbose then .logged { connection := name } executor else executor⟩

/-- A builder whose statements run on the connection. -/
def builder (c : Connection) : Builder := ⟨some c.executor⟩

/-- Runs a statement given as text and parameters. -/
def execute (c : Connection) (s : Statement) : Run := c.executor.run s

/-- A described table on the connection. -/
def table (c : Connection) (config : TableConfig) : Except Fault Table :=
  Table.ofConfig config (some c.executor)

end Connection

/-- The connections under their names. -/
structure Registry where
  connections : Keyed Connection

namespace Registry

/-- No connections. -/
def empty : Registry := ⟨Keyed.empty⟩

instance : Inhabited Registry := ⟨empty⟩

/-- What is reported when a name is given to a connection. -/
def registeredEvent (name : String) (replaced : Bool) : Event :=
  ⟨.info, .connections,
    [("connection", name), ("replaced", if replaced then "true" else "false"),
     ("message", "database registered")]⟩

/-- What is reported when a name is removed. -/
def removedEvent (name : String) : Event :=
  ⟨.info, .connections, [("connection", name), ("message", "database removed")]⟩

/-- Whether a name is taken. -/
def contains (r : Registry) (name : String) : Bool := r.connections.contains name

/-- Gives a name to a connection, in place of the one that had it. -/
def register (r : Registry) (name : String) (executor : Executor) (verbose : Bool := true) :
    Registry × Connection × Event :=
  let connection := Connection.ofExecutor name executor verbose
  (⟨r.connections.insert name connection⟩, connection,
    registeredEvent name (r.contains name))

/-- The connection under a name. -/
def get (r : Registry) (name : String) : Except Fault Connection :=
  match r.connections.get? name with
  | some c => .ok c
  | none => .error (.connectionUnknown name)

/-- The names in the order of their code points. -/
def names (r : Registry) : List String :=
  r.connections.keys.mergeSort fun a b => !decide (b < a)

/-- Removes a name; gives the connection that had it. -/
def remove (r : Registry) (name : String) : Registry × Option Connection × List Event :=
  match r.connections.get? name with
  | some c => (⟨r.connections.erase name⟩, some c, [removedEvent name])
  | none => (r, none, [])

end Registry

end Sqlwright
