import Sqlwright.Number.Layout

/-!
# Ordered documents

The documents that conditions, select lists, assignments and rows may be given as: null, booleans,
numbers, texts, lists and objects. The members of an object keep the order in which they were
written, since that order decides the order of the statement's parts.
-/

namespace Sqlwright

/-- A number of a document. Whole literals are integers as far as the machine words reach; all
others are floating-point numbers. -/
inductive Document.Number where
  | int (n : Int64)
  | uint (n : UInt64)
  | float (x : Binary64)
  deriving DecidableEq, Repr

/-- A document. -/
inductive Document where
  | null
  | bool (b : Bool)
  | number (n : Document.Number)
  | text (s : String)
  | list (items : List Document)
  | object (members : List (String × Document))
  deriving Repr

namespace Document

instance : Inhabited Document := ⟨.null⟩

mutual

/-- Whether two documents are the same. -/
def same : Document → Document → Bool
  | .null, .null => true
  | .bool a, .bool b => a == b
  | .number a, .number b => decide (a = b)
  | .text a, .text b => a == b
  | .list as, .list bs => sameItems as bs
  | .object as, .object bs => sameMembers as bs
  | _, _ => false

/-- Whether two lists hold the same documents. -/
def sameItems : List Document → List Document → Bool
  | [], [] => true
  | a :: as, b :: bs => same a b && sameItems as bs
  | _, _ => false

/-- Whether two objects have the same members in the same order. -/
def sameMembers : List (String × Document) → List (String × Document) → Bool
  | [], [] => true
  | (k, a) :: as, (l, b) :: bs => k == l && same a b && sameMembers as bs
  | _, _ => false

end

mutual

theorem same_iff : ∀ a b : Document, same a b = true ↔ a = b
  | .null, b => by cases b <;> simp [same]
  | .bool a, b => by cases b <;> simp [same]
  | .number a, b => by cases b <;> simp [same]
  | .text a, b => by cases b <;> simp [same]
  | .list as, b => by cases b <;> simp [same, sameItems_iff as]
  | .object as, b => by cases b <;> simp [same, sameMembers_iff as]

theorem sameItems_iff : ∀ as bs : List Document, sameItems as bs = true ↔ as = bs
  | [], bs => by cases bs <;> simp [sameItems]
  | a :: as, bs => by cases bs <;> simp [sameItems, same_iff a, sameItems_iff as]

theorem sameMembers_iff :
    ∀ as bs : List (String × Document), sameMembers as bs = true ↔ as = bs
  | [], bs => by cases bs <;> simp [sameMembers]
  | (k, a) :: as, bs => by
    rcases bs with _ | ⟨⟨l, b⟩, bs⟩
    · simp [sameMembers]
    · simp [sameMembers, same_iff a, sameMembers_iff as, and_assoc]

end

instance : DecidableEq Document := fun a b => decidable_of_iff _ (same_iff a b)

/-- The member of an object under a key. -/
def member? (key : String) (members : List (String × Document)) : Option Document :=
  members.lookup key

/-- Whether an object has a key. -/
def hasMember (key : String) (members : List (String × Document)) : Bool :=
  (member? key members).isSome

end Document

end Sqlwright
