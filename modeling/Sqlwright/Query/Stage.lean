/-!
# Stages of a statement

A stage says which clauses a statement already has, and so which calls may follow. A SELECT goes
from its list to the tables, then past filter, groups, order and limit to the offset; an UPDATE or
DELETE goes past filter and order to the limit; an INSERT is finished at once. Clauses may be
skipped, never repeated or put earlier.
-/

namespace Sqlwright

/-- How far a statement has come. -/
inductive Stage where
  | projected
  | sourced
  | filtered
  | grouped
  | ordered
  | limited
  | paged
  | updating
  | assigned
  | inserted
  | deleting
  | mutationFiltered
  | mutationOrdered
  | mutationLimited
  deriving DecidableEq, Repr

/-- The calls that a statement can be continued with. -/
inductive StepKind where
  | source
  | join
  | set
  | filter
  | group
  | order
  | limit
  | offset
  /-- A change of the executor, which leaves the statement as it is. -/
  | rebind
  deriving DecidableEq, Repr

namespace Stage

/-- The name of a stage. -/
def label : Stage → String
  | .projected => "Projected"
  | .sourced => "Sourced"
  | .filtered => "Filtered"
  | .grouped => "Grouped"
  | .ordered => "Ordered"
  | .limited => "Limited"
  | .paged => "Paged"
  | .updating => "Updating"
  | .assigned => "Assigned"
  | .inserted => "Inserted"
  | .deleting => "Deleting"
  | .mutationFiltered => "MutationFiltered"
  | .mutationOrdered => "MutationOrdered"
  | .mutationLimited => "MutationLimited"

/-- The stage after a call, if the call may follow at all. -/
def next? : Stage → StepKind → Option Stage
  | s, .rebind => some s
  | .projected, .source => some .sourced
  | .sourced, .join => some .sourced
  | .updating, .set => some .assigned
  | .sourced, .filter => some .filtered
  | .assigned, .filter | .deleting, .filter => some .mutationFiltered
  | .sourced, .group | .filtered, .group => some .grouped
  | .sourced, .order | .filtered, .order | .grouped, .order => some .ordered
  | .assigned, .order | .deleting, .order | .mutationFiltered, .order => some .mutationOrdered
  | .sourced, .limit | .filtered, .limit | .grouped, .limit | .ordered, .limit => some .limited
  | .assigned, .limit | .deleting, .limit | .mutationFiltered, .limit
  | .mutationOrdered, .limit => some .mutationLimited
  | .limited, .offset => some .paged
  | _, _ => none

/-- Whether a condition that says nothing is refused: it would let an UPDATE or DELETE reach every
row. -/
def isGuarded : Stage → Bool
  | .assigned | .deleting => true
  | _ => false

end Stage

end Sqlwright
