import Sqlwright.Fragment
import Sqlwright.Placeholder

/-!
# Statements from clauses

The clauses of a statement stand in thirteen slots. Assembling goes through the slots in their
fixed order: a head opens the statement, every other clause follows after a space, and an empty
slot adds nothing.
-/

namespace Sqlwright

/-- A finished statement. -/
abbrev Statement := Fragment

namespace Fragment

/-- How many parameters the text asks for. -/
def placeholders (f : Fragment) : Nat := Placeholder.count f.sql

/-- The text with the parameters written into it; nothing is left to bind. -/
def inlined (f : Fragment) : Fragment := ⟨Placeholder.fill f.sql f.params, []⟩

end Fragment

/-- The slots of a statement. -/
inductive Slot where
  | count
  | select
  | update
  | insert
  | delete
  | set
  | source
  | join
  | filter
  | group
  | order
  | limit
  | offset
  deriving DecidableEq, Repr

namespace Slot

/-- The slots in the order of a statement. -/
def all : List Slot :=
  [.count, .select, .update, .insert, .delete, .set, .source, .join, .filter, .group, .order,
   .limit, .offset]

/-- Whether a slot opens a statement. -/
def isHead : Slot → Bool
  | .count | .select | .update | .insert | .delete => true
  | _ => false

end Slot

/-- What stands in every slot. -/
structure Clauses where
  slot : Slot → Fragment

namespace Clauses

/-- Every slot empty. -/
def empty : Clauses := ⟨fun _ => .empty⟩

instance : Inhabited Clauses := ⟨empty⟩

/-- Puts a fragment into a slot. -/
def put (c : Clauses) (s : Slot) (f : Fragment) : Clauses :=
  ⟨fun other => if other = s then f else c.slot other⟩

@[simp] theorem slot_put_self (c : Clauses) (s : Slot) (f : Fragment) :
    (c.put s f).slot s = f := by
  simp [put]

theorem slot_put_of_ne (c : Clauses) {s other : Slot} (h : other ≠ s) (f : Fragment) :
    (c.put s f).slot other = c.slot other := by
  simp [put, h]

/-- Two fragments of one slot, with a space between if the first says something. -/
def extended (old new : Fragment) : Fragment :=
  ⟨(if old.isBlank then "" else old.sql ++ " ") ++ new.sql, old.params ++ new.params⟩

/-- Adds a clause. Joins gather in their slot in the order in which they come; of any other clause
there is one. -/
def add (c : Clauses) (s : Slot) (f : Fragment) : Clauses :=
  if s = .join then c.put s (extended (c.slot s) f) else c.put s f

/-- Places the clause of a slot behind those already placed. -/
def place (done : Statement) (s : Slot) (f : Fragment) : Statement :=
  if f.isBlank then done
  else
    ⟨(if s.isHead || done.isBlank then done.sql else done.sql ++ " ") ++ f.sql,
      done.params ++ f.params⟩

/-- The statement of the clauses. -/
def assemble (c : Clauses) : Statement :=
  Slot.all.foldl (fun done s => place done s (c.slot s)) .empty

end Clauses

end Sqlwright
