import Sqlwright.Calendar
import Sqlwright.Document
import Sqlwright.Keyed

/-!
# Values

What a placeholder can be bound to. A document's scalars have a value of their own kind; its lists
and objects are bound as documents.
-/

namespace Sqlwright

/-- A bound parameter. Names are bound as texts; the placeholder decides how they are shown. -/
inductive Value where
  | null
  | bool (b : Bool)
  | int (n : Int64)
  | uint (n : UInt64)
  | float (x : Binary64)
  | text (s : String)
  | bytes (octets : List UInt8)
  | dateTime (t : DateTime)
  | document (d : Document)
  deriving DecidableEq, Repr

/-- A row of a table: values under distinct columns, in order. -/
abbrev Row := Keyed Value

namespace Value

instance : Inhabited Value := ⟨.null⟩

/-- Whether the value is the SQL null. -/
def isNull : Value → Bool
  | .null => true
  | _ => false

/-- The content of a text. -/
def text? : Value → Option String
  | .text s => some s
  | _ => none

/-- The value of a document: scalars by their kind, lists and objects as they are. -/
def ofDocument : Document → Value
  | .null => .null
  | .bool b => .bool b
  | .number (.int n) => .int n
  | .number (.uint n) => .uint n
  | .number (.float x) => .float x
  | .text s => .text s
  | d => .document d

end Value

end Sqlwright
