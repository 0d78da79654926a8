import Sqlwright.Proofs.Finding
import Sqlwright.Proofs.Paging
import Sqlwright.Proofs.SetList

/-!
# Changes of a table

An operation that changes or removes rows names its table first, keeps to a condition, and never
writes the primary key, however the payload and the options were made up. Its filter follows a
guarded stage, so a condition that says nothing never gets through; an operation on one row ends in
a limit of one (`Operation.bounded_of_run`).
-/

namespace Sqlwright

open Condition

/-! ## The payload of an update -/

theorem Keyed.not_mem_keys_erase {α : Type} (k : Keyed α) (key : String) :
    key ∉ (k.erase key).keys := by
  rw [keys_erase]
  simp

/-- An UPDATE that carries its payload opens with its table and a list of assignments. -/
theorem Start.fragments_updateWith {table key : String} {values : Assignments}
    {options : UpdateOptions} {clauses : List Clause} (hk : options.primaryKey = some key)
    (h : (Start.updateWith table (.ready values) options).clauses = .ok clauses) :
    ∃ prepared : Assignments, prepared.isEmpty = false ∧ key ∉ prepared.keys ∧
      (Start.updateWith table (.ready values) options).fragments
        = [⟨"UPDATE ??", [.text table]⟩,
          (Fragment.join ", " (prepared.entries.map fun e => e.2.fragment e.1)).enclose
            "SET " ""] := by
  have hentries := Assignments.entries_withoutKey_stamped options values
  obtain ⟨-, _, ⟨⟩, -, hplan, -⟩ := Start.clauses_updateWith_eq_ok_iff.1 h
  refine ⟨(values.stamped options).withoutKey options, ?_, ?_, ?_⟩
  · rw [Keyed.isEmpty_eq_false_iff, hentries]
    exact hplan
  · rw [Assignments.withoutKey, hk]
    exact Keyed.not_mem_keys_erase _ key
  · rw [Start.fragments_of_plan rfl h, setList, hentries]

/-! ## Guarded filters -/

/-- A filter that a guarded statement takes has a predicate with text. -/
theorem Query.exists_predicate_of_guarded {q q' : Query} {tree : Tree}
    (hg : q.stage.isGuarded = true) (h : q.step (Table.filterStep tree) = .ok q') :
    ∃ f, predicate .and tree = .ok f ∧ f.sql ≠ "" ∧
      (Table.filterStep tree).fragments = [f.enclose "WHERE " ""] := by
  obtain ⟨-, clause, -, hclause, -⟩ := Query.step_eq_ok_iff.1 h
  rw [Table.filterStep, Step.clause?_filter rfl] at hclause
  obtain ⟨f, hf, -⟩ : ∃ f, predicate .and tree = .ok f ∧ _ := bind_eq_ok_iff.1 hclause
  rw [filterClause_eq hf, hg] at hclause
  refine ⟨f, hf, ?_⟩
  rw [fragments_filterStep hf]
  have hblank := isBlank_predicate hf
  cases hr : nodeRenders tree with
  | false =>
    rw [hr] at hclause
    cases hclause
  | true =>
    rw [hr] at hblank
    exact ⟨by simpa [Fragment.isBlank] using hblank, rfl⟩

/-- The statement of a run whose filter follows a guarded opening. -/
theorem Builder.statement_of_guarded {b : Builder} {start : Start} {tree : Tree}
    {tail : List Step} {q : Query} (hg : start.stage.isGuarded = true)
    (h : b.build start (Table.filterStep tree :: tail) = .ok q) :
    ∃ clauses f, start.clauses = .ok clauses ∧ predicate .and tree = .ok f ∧ f.sql ≠ "" ∧
      q.statement = Fragment.join " "
        (start.fragments ++ f.enclose "WHERE " "" :: tail.flatMap Step.fragments) := by
  have hstatement := Program.statement_run (p := ⟨start, Table.filterStep tree :: tail⟩) h
  obtain ⟨q₀, hstart, hsteps⟩ := Builder.build_eq_ok_iff.1 h
  obtain ⟨clauses, hclauses, rfl⟩ := Builder.start_eq_ok_iff.1 hstart
  obtain ⟨q₁, hfilter, -⟩ := Query.steps_cons_eq_ok_iff.1 hsteps
  obtain ⟨f, hf, hne, hfragments⟩ := Query.exists_predicate_of_guarded hg hfilter
  refine ⟨clauses, f, hclauses, hf, hne, ?_⟩
  rw [hstatement, Program.fragments, List.flatMap_cons, hfragments, List.singleton_append]

/-- A statement of at least two fragments ends in the last of them. -/
theorem Fragment.join_concat {m : String} {fs : List Fragment} (h : fs ≠ []) (f : Fragment) :
    join m (fs ++ [f]) = ⟨(join m fs).sql ++ m ++ f.sql, (join m fs).params ++ f.params⟩ := by
  obtain ⟨g, gs, rfl⟩ := List.exists_cons_of_ne_nil h
  rw [← Fragment.join_join_cons, Fragment.join_pair]

/-! ## Operations that change rows -/

namespace Operation

/-- Whether an operation updates rows. -/
def isUpdate : Operation → Bool
  | .updateOne _ _ _ | .updateAll _ _ _ | .patchSingleField _ _ _ _ | .softDeleteOne _ _ _
  | .softDelete _ _ _ => true
  | _ => false

/-- Whether an operation removes rows. -/
def isRemoval : Operation → Bool
  | .removeOne _ _ | .remove _ => true
  | _ => false

/-- Whether a change is meant for one row. -/
def isSingle : Operation → Bool
  | .updateOne _ _ _ | .softDeleteOne _ _ _ | .removeOne _ _ => true
  | _ => false

/-- The condition of a change. -/
def condition? : Operation → Option (Input Tree)
  | .updateOne _ condition _ | .updateAll _ condition _ | .patchSingleField _ _ condition _
  | .softDeleteOne condition _ _ | .softDelete condition _ _ | .removeOne condition _
  | .remove condition => some condition
  | _ => none

/-- The calls behind the filter of a change. -/
def tail : Operation → List Step
  | .updateOne _ _ _ | .softDeleteOne _ _ _ => [.limit (some 1)]
  | .removeOne _ order => [.order order, .limit (some 1)]
  | _ => []

/-- What a change of a table is held to. `opening` is its first text, and `set` the assignments
that follow it. -/
structure Bounded (t : Table) (op : Operation) (opening : String) (set : List Fragment)
    (s : Statement) : Prop where
  /-- The statement is filtered by the condition, which has a predicate with text. -/
  filtered : ∃ condition tree f, op.condition? = some condition ∧
    condition.resolve readTree = .ok tree ∧ predicate .and tree = .ok f ∧ f.sql ≠ "" ∧
    s = Fragment.join " " (⟨opening, [.text t.config.name]⟩ :: set
      ++ f.enclose "WHERE " "" :: op.tail.flatMap Step.fragments)
  /-- The table comes first. -/
  first : s.params.head? = some (.text t.config.name)
  /-- A change of one row ends in its limit. -/
  last : op.isSingle = true →
    (∃ body, s.sql = body ++ " LIMIT ?") ∧ s.params.getLast? = some (.uint 1)

/-- The calls behind the filter of a change of one row end in a limit of one. -/
theorem exists_tail_of_isSingle {op : Operation} (h : op.isSingle = true) :
    ∃ steps, op.tail = steps ++ [.limit (some 1)] := by
  cases op with
  | updateOne | softDeleteOne => exact ⟨[], rfl⟩
  | removeOne _ order => exact ⟨[.order order], rfl⟩
  | _ => cases h

/-- A statement of the right form is bounded. -/
theorem Bounded.of_statement {t : Table} {op : Operation} {opening : String}
    {set : List Fragment} {s : Statement} {condition : Input Tree} {tree : Tree} {f : Fragment}
    (hop : op.condition? = some condition) (hc : condition.resolve readTree = .ok tree)
    (hf : predicate .and tree = .ok f) (hne : f.sql ≠ "")
    (hs : s = Fragment.join " " (⟨opening, [.text t.config.name]⟩ :: set
      ++ f.enclose "WHERE " "" :: op.tail.flatMap Step.fragments)) :
    op.Bounded t opening set s where
  filtered := ⟨condition, tree, f, hop, hc, hf, hne, hs⟩
  first := by rw [hs]; rfl
  last hsingle := by
    obtain ⟨steps, hsteps⟩ := exists_tail_of_isSingle hsingle
    have hlimit : [Step.limit (some 1)].flatMap Step.fragments = [limitFragment 1] := rfl
    rw [hsteps, List.flatMap_append, hlimit, ← List.cons_append, ← List.append_assoc,
      Fragment.join_concat (by simp)] at hs
    rw [hs]
    exact ⟨⟨_, String.append_assoc ..⟩, List.getLast?_concat ..⟩

/-- An update settles its condition and its payload, and neither may be empty. -/
theorem updateProgram_eq_ok_iff {t : Table} {operation : String} {data : Input Assignments}
    {condition : Input Tree} {options : UpdateOptions} {steps : List Step} {p : Program} :
    updateProgram t operation data condition options steps = .ok p ↔
      ∃ tree values, (condition.resolve readTree = .ok tree ∧ tree ≠ []) ∧
        (data.resolve Assignments.read = .ok values ∧ values.isEmpty = false) ∧
        ⟨.updateWith t.config.name (.ready values)
          { options with primaryKey := some t.config.primaryKey },
          Table.filterStep tree :: steps⟩ = p := by
  simp only [updateProgram, bind_eq_ok_iff, pure_eq_ok_iff, Table.requireCondition_eq_ok_iff,
    Table.requireData_eq_ok_iff]
  constructor
  · rintro ⟨tree, htree, values, hvalues, rfl⟩
    exact ⟨tree, values, htree, hvalues, rfl⟩
  · rintro ⟨tree, values, htree, hvalues, rfl⟩
    exact ⟨tree, htree, values, hvalues, rfl⟩

/-- The program of an update: whatever its options say, their primary key is that of the table. -/
theorem program_of_isUpdate {t : Table} {op : Operation} {p : Program} (hop : op.isUpdate = true)
    (h : op.program t = .ok p) :
    ∃ (condition : Input Tree) (tree : Tree) (values : Assignments) (options : UpdateOptions),
      op.condition? = some condition ∧
      condition.resolve readTree = .ok tree ∧ options.primaryKey = some t.config.primaryKey ∧
      p = ⟨.updateWith t.config.name (.ready values) options,
        Table.filterStep tree :: op.tail⟩ := by
  cases op with
  | updateOne data condition options | updateAll data condition options
  | softDeleteOne condition value options | softDelete condition value options =>
    obtain ⟨tree, values, ⟨htree, -⟩, -, rfl⟩ := updateProgram_eq_ok_iff.1 h
    exact ⟨condition, tree, values, _, rfl, htree, rfl, rfl⟩
  | patchSingleField field value condition options =>
    rw [program] at h
    split at h
    · cases h
    · obtain ⟨tree, values, ⟨htree, -⟩, -, rfl⟩ := updateProgram_eq_ok_iff.1 h
      exact ⟨condition, tree, values, _, rfl, htree, rfl, rfl⟩
  | _ => cases hop

theorem program_of_isRemoval {t : Table} {op : Operation} {p : Program}
    (hop : op.isRemoval = true) (h : op.program t = .ok p) :
    ∃ (condition : Input Tree) (tree : Tree), op.condition? = some condition ∧
      condition.resolve readTree = .ok tree ∧
      p = ⟨.deleteFrom t.config.name, Table.filterStep tree :: op.tail⟩ := by
  cases op with
  | removeOne condition order =>
    simp only [program, bind_eq_ok_iff, pure_eq_ok_iff, Table.requireCondition_eq_ok_iff] at h
    obtain ⟨tree, ⟨htree, -⟩, rfl⟩ := h
    exact ⟨condition, tree, rfl, htree, rfl⟩
  | remove condition =>
    simp only [program, bind_eq_ok_iff, pure_eq_ok_iff, Table.requireCondition_eq_ok_iff] at h
    obtain ⟨tree, ⟨htree, -⟩, rfl⟩ := h
    exact ⟨condition, tree, rfl, htree, rfl⟩
  | _ => cases hop

/-- Every change that is not refused names its table first and keeps to a condition with a
predicate; a change of one row ends in a limit of one, and an update assigns to some columns but
never to the primary key of the table. -/
theorem bounded_of_run {t : Table} {op : Operation} {q : Query} (h : op.run t = .ok q) :
    (op.isUpdate = true → ∃ values : Assignments,
      values.isEmpty = false ∧ t.config.primaryKey ∉ values.keys ∧
      op.Bounded t "UPDATE ??"
        [(Fragment.join ", " (values.entries.map fun e => e.2.fragment e.1)).enclose "SET " ""]
        q.statement) ∧
    (op.isRemoval = true → op.Bounded t "DELETE FROM ??" [] q.statement) := by
  obtain ⟨p, hp, hbuild⟩ := run_eq_ok_iff.1 h
  constructor
  · intro hop
    obtain ⟨condition, tree, values, options, hcondition, htree, hkey, rfl⟩ :=
      program_of_isUpdate hop hp
    obtain ⟨clauses, f, hclauses, hf, hne, hstatement⟩ := Builder.statement_of_guarded rfl hbuild
    obtain ⟨prepared, hsome, hnokey, hopening⟩ := Start.fragments_updateWith hkey hclauses
    rw [hopening] at hstatement
    exact ⟨prepared, hsome, hnokey, .of_statement hcondition htree hf hne hstatement⟩
  · intro hop
    obtain ⟨condition, tree, hcondition, htree, rfl⟩ := program_of_isRemoval hop hp
    obtain ⟨clauses, f, hclauses, hf, hne, hstatement⟩ := Builder.statement_of_guarded rfl hbuild
    have hopening : (Start.deleteFrom t.config.name).fragments
        = [⟨"DELETE FROM ??", [.text t.config.name]⟩] := by
      rw [Start.fragments, hclauses]
      simp only [Start.clauses, bind_eq_ok_iff, pure_eq_ok_iff] at hclauses
      obtain ⟨-, -, rfl⟩ := hclauses
      rfl
    rw [hopening] at hstatement
    exact .of_statement hcondition htree hf hne hstatement

/-- Options that stamp the primary key and name another column as the key. -/
def contraryOptions : UpdateOptions :=
  { timestamps := true, utimeField := "id", utimeStamp := .fixed (.int 7), primaryKey := some "a" }

theorem bounded_of_contraryOptions :
    (∃ (op : Operation) (q : Query) (values : Assignments), op.isSingle = true ∧
      op.run .users = .ok q ∧ values.isEmpty = false ∧ "id" ∉ values.keys ∧
      op.Bounded .users "UPDATE ??"
        [(Fragment.join ", " (values.entries.map fun e => e.2.fragment e.1)).enclose "SET " ""]
        q.statement ∧
      q.statement = ⟨"UPDATE ?? SET ?? = ? WHERE a = ? LIMIT ?",
        [.text "users", .text "a", .int 2, .text "x", .uint 1]⟩) ∧
    ∃ (op : Operation) (q : Query), op.isSingle = true ∧ op.run .users = .ok q ∧
      op.Bounded .users "DELETE FROM ??" [] q.statement := by
  have hupdate : ∃ q, (Operation.updateOne
      (.document (.object [("id", .number (.int 1)), ("a", .number (.int 2))]))
      (.document (.object [("a", .text "x")])) contraryOptions).run .users = .ok q ∧
      q.statement = ⟨"UPDATE ?? SET ?? = ? WHERE a = ? LIMIT ?",
        [.text "users", .text "a", .int 2, .text "x", .uint 1]⟩ := ⟨_, rfl, rfl⟩
  obtain ⟨q, hq, hs⟩ := hupdate
  obtain ⟨r, hr⟩ : ∃ r, (Operation.removeOne (.document (.object [("a", .text "x")]))
    [⟨"a", .descending⟩]).run .users = .ok r := ⟨_, rfl⟩
  obtain ⟨values, hne, hkey, hbounded⟩ := (bounded_of_run hq).1 rfl
  exact ⟨⟨_, q, values, rfl, hq, hne, hkey, hbounded, hs⟩, _, r, rfl, hr, (bounded_of_run hr).2 rfl⟩

end Operation

end Sqlwright
