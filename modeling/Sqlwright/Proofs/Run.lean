import Sqlwright.Proofs.Rendering
import Sqlwright.Table

/-!
# Runs

A run opens a statement and continues it call by call. What holds of an opened statement and is
kept by every call holds of every statement that a run reaches, and a run that succeeds has
succeeded at each of its stages. An operation on a table settles its arguments and is then a run of
the table's builder (`Operation.run_eq`).
-/

namespace Sqlwright

namespace Query

/-- What a call does: the stage offers it, and the clause it adds, if any, goes to its slot. -/
theorem step_eq_ok_iff {q q' : Query} {s : Step} :
    q.step s = .ok q' ↔ ∃ stage clause, q.stage.next? s.kind = some stage ∧
      s.clause? q.stage.isGuarded = .ok clause ∧
      ⟨stage, addClause q.clauses clause, executorAfter q.executor s⟩ = q' := by
  rw [step]
  cases q.stage.next? s.kind with
  | none => simp
  | some stage =>
    cases s.clause? q.stage.isGuarded with
    | error f => simp
    | ok clause => simp

/-- A step that is offered and not refused is taken. -/
theorem exists_step {q : Query} {s : Step} (stage : Stage) {clause : Option Clause}
    (hs : q.stage.next? s.kind = some stage) (hc : s.clause? q.stage.isGuarded = .ok clause) :
    ∃ q', q.step s = .ok q' ∧ q'.stage = stage :=
  ⟨_, step_eq_ok_iff.2 ⟨stage, clause, hs, hc, rfl⟩, rfl⟩

theorem steps_cons_eq_ok_iff {q r : Query} {s : Step} {ss : List Step} :
    q.steps (s :: ss) = .ok r ↔ ∃ q', q.step s = .ok q' ∧ q'.steps ss = .ok r := by
  rw [steps]
  cases q.step s with
  | error e => simp
  | ok q' => simp

theorem steps_append_eq_ok_iff {q r : Query} {ss ts : List Step} :
    q.steps (ss ++ ts) = .ok r ↔ ∃ q', q.steps ss = .ok q' ∧ q'.steps ts = .ok r := by
  induction ss generalizing q with
  | nil => simp [steps]
  | cons s ss ih =>
    simp only [List.cons_append, steps_cons_eq_ok_iff, ih]
    constructor
    · rintro ⟨q₁, hs, q₂, hss, hts⟩
      exact ⟨q₂, ⟨q₁, hs, hss⟩, hts⟩
    · rintro ⟨q₂, ⟨q₁, hs, hss⟩, hts⟩
      exact ⟨q₁, hs, q₂, hss, hts⟩

/-- A run that succeeds has succeeded at each of its stages. -/
theorem exists_steps_take {q r : Query} {ss : List Step} (h : q.steps ss = .ok r) (n : Nat) :
    ∃ q', q.steps (ss.take n) = .ok q' := by
  rw [← List.take_append_drop n ss, steps_append_eq_ok_iff] at h
  obtain ⟨q', hq, -⟩ := h
  exact ⟨q', hq⟩

/-- What every call of a run keeps, the run keeps. -/
theorem invariant_of_steps {P : Query → Prop} {ss : List Step}
    (hstep : ∀ s ∈ ss, ∀ q q', P q → q.step s = .ok q' → P q') {q r : Query} (hq : P q)
    (h : q.steps ss = .ok r) : P r := by
  induction ss generalizing q with
  | nil => cases h; exact hq
  | cons s ss ih =>
    obtain ⟨q', hs, hss⟩ := steps_cons_eq_ok_iff.1 h
    exact ih (fun t ht => hstep t (by simp [ht])) (hstep s (by simp) q q' hq hs) hss

end Query

namespace Builder

theorem start_eq_ok_iff {b : Builder} {s : Start} {q : Query} :
    b.start s = .ok q ↔ ∃ clauses, s.clauses = .ok clauses ∧
      ⟨s.stage, clauses.foldl (fun c clause => c.add clause.1 clause.2) .empty, b.executor⟩
        = q := by
  simp only [start, bind_eq_ok_iff, pure_eq_ok_iff]

theorem build_eq_ok_iff {b : Builder} {s : Start} {steps : List Step} {r : Query} :
    b.build s steps = .ok r ↔ ∃ q, b.start s = .ok q ∧ q.steps steps = .ok r := by
  rw [build]
  cases b.start s with
  | error f => simp
  | ok q => simp

/-- What continues a run is a longer run. -/
theorem build_append {b : Builder} {s : Start} {ss ts : List Step} {q r : Query}
    (h : b.build s ss = .ok q) (ht : q.steps ts = .ok r) : b.build s (ss ++ ts) = .ok r := by
  obtain ⟨q₀, hstart, hss⟩ := build_eq_ok_iff.1 h
  exact build_eq_ok_iff.2 ⟨q₀, hstart, Query.steps_append_eq_ok_iff.2 ⟨q, hss, ht⟩⟩

theorem exists_build_take {b : Builder} {s : Start} {steps : List Step} {r : Query}
    (h : b.build s steps = .ok r) (n : Nat) : ∃ q, b.build s (steps.take n) = .ok q := by
  obtain ⟨q, hstart, hsteps⟩ := build_eq_ok_iff.1 h
  obtain ⟨q', hq'⟩ := Query.exists_steps_take hsteps n
  exact ⟨q', build_eq_ok_iff.2 ⟨q, hstart, hq'⟩⟩

end Builder

/-! ## Operations -/

namespace Table

theorem lift_eq_ok_iff {α : Type} {x : Except Fault α} {a : α} :
    lift x = .ok a ↔ x = .ok a := by
  cases x <;> simp [lift]

/-- A condition that is required is read, and has an entry. -/
theorem requireCondition_eq_ok_iff {t : Table} {operation : String}
    {condition : Input Condition.Tree} {tree : Condition.Tree} :
    t.requireCondition operation condition = .ok tree ↔
      condition.resolve Condition.readTree = .ok tree ∧ tree ≠ [] := by
  simp only [requireCondition, bind_eq_ok_iff, lift_eq_ok_iff]
  constructor
  · rintro ⟨read, hread, h⟩
    split at h
    · cases h
    · rename_i hne
      cases h
      exact ⟨hread, by simpa using hne⟩
  · rintro ⟨hread, hne⟩
    refine ⟨tree, hread, ?_⟩
    rw [if_neg (by simpa using hne)]
    rfl

/-- A payload that is required is read, and has a column. -/
theorem requireData_eq_ok_iff {t : Table} {operation : String} {data : Input Assignments}
    {values : Assignments} :
    t.requireData operation data = .ok values ↔
      data.resolve Assignments.read = .ok values ∧ values.isEmpty = false := by
  simp only [requireData, bind_eq_ok_iff, lift_eq_ok_iff]
  constructor
  · rintro ⟨read, hread, h⟩
    split at h
    · cases h
    · rename_i hne
      cases h
      exact ⟨hread, Bool.eq_false_iff.2 hne⟩
  · rintro ⟨hread, hne⟩
    refine ⟨values, hread, ?_⟩
    rw [hne]
    rfl

end Table

/-- The operations on a table. -/
inductive Operation where
  | select (fields : Input SelectList)
  | count (field : String) (label : Option String)
  | findOne (fields : Input SelectList) (condition : Input Condition.Tree)
      (order : List OrderItem)
  | findAll (fields : Input SelectList) (condition : Option (Input Condition.Tree))
      (order : List OrderItem) (limit offset : Option UInt64)
  | updateOne (data : Input Assignments) (condition : Input Condition.Tree)
      (options : UpdateOptions)
  | updateAll (data : Input Assignments) (condition : Input Condition.Tree)
      (options : UpdateOptions)
  | insertRecord (rows : Input (List Row)) (options : InsertOptions)
  | removeOne (condition : Input Condition.Tree) (order : List OrderItem)
  | remove (condition : Input Condition.Tree)
  | patchSingleField (field : String) (value : Value) (condition : Input Condition.Tree)
      (options : UpdateOptions)
  | softDeleteOne (condition : Input Condition.Tree) (value : Value) (options : SoftDeleteOptions)
  | softDelete (condition : Input Condition.Tree) (value : Value) (options : SoftDeleteOptions)

def Table.users : Table := ⟨⟨"users", "id", ["id", "a"], {}⟩, {}, rfl⟩

/-- A run of a builder: an opening call and those that continue it. -/
structure Program where
  start : Start
  steps : List Step

def Program.run (b : Builder) (p : Program) : Except Refusal Query := b.build p.start p.steps

namespace Operation

def run (t : Table) : Operation → Except Refusal Query
  | .select fields => t.select fields
  | .count field label => t.count field label
  | .findOne fields condition order => t.findOne fields condition order
  | .findAll fields condition order limit offset => t.findAll fields condition order limit offset
  | .updateOne data condition options => t.updateOne data condition options
  | .updateAll data condition options => t.updateAll data condition options
  | .insertRecord rows options => (t.insertRecord rows options).1
  | .removeOne condition order => t.removeOne condition order
  | .remove condition => t.remove condition
  | .patchSingleField field value condition options =>
    t.patchSingleField field value condition options
  | .softDeleteOne condition value options => t.softDeleteOne condition value options
  | .softDelete condition value options => t.softDelete condition value options

/-- The program of an update. -/
def updateProgram (t : Table) (operation : String) (data : Input Assignments)
    (condition : Input Condition.Tree) (options : UpdateOptions) (steps : List Step) :
    Except Refusal Program := do
  let tree ← t.requireCondition operation condition
  let values ← t.requireData operation data
  pure ⟨.updateWith t.config.name (.ready values)
    { options with primaryKey := some t.config.primaryKey }, Table.filterStep tree :: steps⟩

/-- The program of an insertion. -/
def insertProgram (t : Table) (rows : Input (List Row)) (options : InsertOptions) :
    Except Refusal Program := do
  let rows ← Table.lift (rows.resolve Insertion.read)
  if rows.all Keyed.isEmpty then .error (.fault (.dataRequired t.config.name "Create"))
  else pure ⟨.insert t.config.name (.ready (rows.map fun row => row.filterKeys t.isColumn)) options,
    []⟩

/-- The program of an operation, once its arguments are settled. -/
def program (t : Table) : Operation → Except Refusal Program
  | .select fields => .ok ⟨.select fields, [t.sourceStep]⟩
  | .count field label => .ok ⟨.count field label, [t.sourceStep]⟩
  | .findOne fields condition order => do
    let tree ← t.requireCondition "FindOne" condition
    pure ⟨.select fields,
      [t.sourceStep, Table.filterStep tree, .order order, .limit (some 1)]⟩
  | .findAll fields condition order limit offset => do
    let tree ← match condition with
      | some condition => t.requireCondition "FindAll" condition
      | none => pure []
    pure ⟨.select fields, [t.sourceStep, Table.filterStep tree, .order order, .limit limit,
      .offset (limit.bind fun _ => offset)]⟩
  | .updateOne data condition options =>
    updateProgram t "UpdateOne" data condition options [.limit (some 1)]
  | .updateAll data condition options => updateProgram t "UpdateAll" data condition options []
  | .insertRecord rows options => insertProgram t rows options
  | .removeOne condition order => do
    let tree ← t.requireCondition "RemoveOne" condition
    pure ⟨.deleteFrom t.config.name, [Table.filterStep tree, .order order, .limit (some 1)]⟩
  | .remove condition => do
    let tree ← t.requireCondition "Remove" condition
    pure ⟨.deleteFrom t.config.name, [Table.filterStep tree]⟩
  | .patchSingleField field value condition options =>
    if Text.isBlankText field then .error (.fault (.patchFieldRequired t.config.name))
    else updateProgram t "PatchSingleField" (Table.single field value) condition options []
  | .softDeleteOne condition value options =>
    updateProgram t "SoftDeleteOne" (Table.single (t.deleteField options) value) condition
      options.update [.limit (some 1)]
  | .softDelete condition value options =>
    updateProgram t "SoftDelete" (Table.single (t.deleteField options) value) condition
      options.update []

theorem updateMatching_eq (t : Table) (operation : String) (data : Input Assignments)
    (condition : Input Condition.Tree) (options : UpdateOptions) (steps : List Step) :
    t.updateMatching operation data condition options steps
      = updateProgram t operation data condition options steps >>= Program.run t.builder := by
  simp only [updateProgram, bind_assoc, pure_bind]
  rfl

/-- An operation is the run of its program. -/
theorem run_eq (t : Table) (op : Operation) :
    op.run t = op.program t >>= Program.run t.builder := by
  cases op with
  | select fields => rfl
  | count field label => rfl
  | findOne fields condition order =>
    simp only [program, bind_assoc, pure_bind]
    rfl
  | findAll fields condition order limit offset =>
    cases condition with
    | none => rfl
    | some condition =>
      simp only [program, bind_assoc, pure_bind]
      rfl
  | updateOne data condition options => exact updateMatching_eq ..
  | updateAll data condition options => exact updateMatching_eq ..
  | insertRecord rows options =>
    -- an insertion settles its rows by a match and has its events beside the statement
    rw [run, Table.insertRecord, program, insertProgram]
    cases rows.resolve Insertion.read with
    | error f => rfl
    | ok rows =>
      cases h : rows.all Keyed.isEmpty with
      | true => simp [Table.lift, h, bind, Except.bind]
      | false =>
        simp only [Table.lift, h, bind, Except.bind]
        rfl
  | removeOne condition order =>
    simp only [program, bind_assoc, pure_bind]
    rfl
  | remove condition =>
    simp only [program, bind_assoc, pure_bind]
    rfl
  | patchSingleField field value condition options =>
    rw [run, Table.patchSingleField, program]
    split
    · rfl
    · exact updateMatching_eq ..
  | softDeleteOne condition value options => exact updateMatching_eq ..
  | softDelete condition value options => exact updateMatching_eq ..

theorem run_eq_ok_iff {t : Table} {op : Operation} {q : Query} :
    op.run t = .ok q ↔
      ∃ p, op.program t = .ok p ∧ t.builder.build p.start p.steps = .ok q := by
  rw [run_eq, bind_eq_ok_iff]
  rfl

end Operation

end Sqlwright
