import Sqlwright.Execution.Logging
import Sqlwright.Query.Step

/-!
# Queries

A query is a statement under construction: its stage, its clauses and the executor it would run
on. A builder opens queries on its executor; a whole program of calls stops at the first that is
out of order or refused.
-/

namespace Sqlwright

/-- Why a program of calls stops: a call that its stage does not offer, or a fault. -/
inductive Refusal where
  | outOfOrder
  | fault (f : Fault)
  deriving DecidableEq, Repr

/-- A statement under construction. -/
structure Query where
  stage : Stage
  clauses : Clauses
  executor : Option Executor

namespace Query

/-- The statement as it stands. -/
def statement (q : Query) : Statement := q.clauses.assemble

/-- Adds a clause, if there is one. -/
def addClause (c : Clauses) : Option Clause → Clauses
  | some (slot, f) => c.add slot f
  | none => c

/-- The executor after a step. -/
def executorAfter (current : Option Executor) : Step → Option Executor
  | .rebind e => some e
  | _ => current

/-- Continues a query. -/
def step (q : Query) (s : Step) : Except Refusal Query :=
  match q.stage.next? s.kind with
  | none => .error .outOfOrder
  | some stage =>
    match s.clause? q.stage.isGuarded with
    | .error f => .error (.fault f)
    | .ok clause => .ok ⟨stage, addClause q.clauses clause, executorAfter q.executor s⟩

/-- Continues a query by several steps. -/
def steps : Query → List Step → Except Refusal Query
  | q, [] => .ok q
  | q, s :: rest =>
    match q.step s with
    | .error r => .error r
    | .ok q => q.steps rest

/-- Runs the statement on the query's executor. -/
def execute (q : Query) : Run :=
  match q.executor with
  | none => ⟨.error .executorMissing, []⟩
  | some e => e.run q.statement

end Query

/-- Opens queries, all on one executor. -/
structure Builder where
  executor : Option Executor := none

namespace Builder

/-- Opens a query. -/
def start (b : Builder) (s : Start) : Except Fault Query := do
  let clauses ← s.clauses
  pure ⟨s.stage, clauses.foldl (fun c clause => c.add clause.1 clause.2) .empty, b.executor⟩

/-- Runs a program of calls: one that opens a query and the steps that continue it. -/
def build (b : Builder) (s : Start) (steps : List Step) : Except Refusal Query :=
  match b.start s with
  | .error f => .error (.fault f)
  | .ok q => q.steps steps

end Builder

end Sqlwright
