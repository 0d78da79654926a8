import Sqlwright.Number.Decimal

/-!
# TOML values

The values that a TOML document can hold. Tables keep the order in which their keys were written.
-/

namespace Sqlwright

/-- A TOML value. -/
inductive Toml where
  | text (s : String)
  | integer (n : Int)
  | float (x : Binary64)
  /-- A number that is spelled as one and has no value: one that is too large, or without digits.
  A document may hold it where nobody asks for it. -/
  | unreadable
  | boolean (b : Bool)
  /-- A date, a time, or both, as it was spelled. -/
  | moment (spelling : String)
  | list (items : List Toml)
  | table (members : List (String × Toml))
  deriving Repr

end Sqlwright
