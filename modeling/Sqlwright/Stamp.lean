import Sqlwright.Value

/-!
# Time stamps

What is written into a time column: one fixed value, or a reading taken whenever one is needed.
Readings are numbered from zero in the order in which a statement takes them.
-/

namespace Sqlwright

/-- Where the value of a time column comes from. -/
inductive Stamp where
  | fixed (value : Value)
  | computed (reading : Nat → Value)

namespace Stamp

/-- The value of the reading with a number. -/
def reading : Stamp → Nat → Value
  | .fixed v, _ => v
  | .computed f, n => f n

/-- Readings that count up from a number. -/
def counting (first : Int64) : Stamp := .computed fun n => .int (first + Int64.ofNat n)

end Stamp

end Sqlwright
