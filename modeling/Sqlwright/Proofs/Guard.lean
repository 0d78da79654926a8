import Sqlwright.Proofs.Appending

/-!
# The guard of changes

A condition says something if one of its leaves does, however deep the groups around it go. An
UPDATE or DELETE refuses a condition that says nothing, since without a filter it would reach every
row; a SELECT takes it and adds no clause. Whatever a condition says is added as a predicate with
text (`step_filter_of_build`).
-/

namespace Sqlwright

namespace Condition

/-! ## Leaves -/

mutual

/-- The leaves of an entry: itself, unless it opens a group, and then those of its conditions. -/
def Entry.leaves : Entry → List Entry
  | .column name test => [.column name test]
  | .group _ children => childLeaves children
  | .raw sql params => [.raw sql params]

/-- The leaves of a condition. -/
def leaves : List Entry → List Entry
  | [] => []
  | entry :: rest => entry.leaves ++ leaves rest

/-- The leaves of several conditions. -/
def childLeaves : List (List Entry) → List Entry
  | [] => []
  | child :: rest => leaves child ++ childLeaves rest

end

/-- A leaf that says something: a column with a value, a list or an operator, or a caller's
predicate that trimming leaves something of. -/
inductive Entry.Says : Entry → Prop where
  | value (name : String) (v : Value) : Says (.column name (.value v))
  | oneOf (name : String) (values : List Value) : Says (.column name (.oneOf values))
  | ops (name : String) {operators : List Op} (asked : operators ≠ []) :
      Says (.column name (.ops operators))
  | raw {sql : String} (params : List Value) (text : Text.trim sql ≠ "") : Says (.raw sql params)

theorem says_column_iff (name : String) (test : Test) :
    (Entry.column name test).Says ↔ test.renders = true := by
  constructor
  · intro h
    cases h with
    | value | oneOf => rfl
    | ops _ asked => simpa [Test.renders] using asked
  · intro h
    cases test with
    | value v => exact .value name v
    | oneOf values => exact .oneOf name values
    | ops operators => exact .ops name (by simpa [Test.renders] using h)

theorem says_raw_iff (sql : String) (params : List Value) :
    (Entry.raw sql params).Says ↔ Text.isBlankText sql = false := by
  rw [← Bool.not_eq_true, ← Text.trim_eq_empty_iff]
  constructor
  · rintro ⟨⟩
    assumption
  · exact .raw params

theorem exists_mem_append_iff {α : Type} {P : α → Prop} {as bs : List α} :
    (∃ a ∈ as ++ bs, P a) ↔ (∃ a ∈ as, P a) ∨ ∃ b ∈ bs, P b := by
  simp only [List.mem_append, or_and_right, exists_or]

mutual

theorem renders_iff_says (entry : Entry) :
    entry.renders = true ↔ ∃ leaf ∈ entry.leaves, leaf.Says := by
  cases entry with
  | column name test =>
    rw [Entry.renders, Entry.leaves, ← says_column_iff name test]
    simp
  | group c children =>
    rw [Entry.renders, Entry.leaves]
    exact someRender_iff_says children
  | raw sql params =>
    rw [Entry.renders, Entry.leaves, Bool.not_eq_true', ← says_raw_iff sql params]
    simp

/-- A condition says something if one of its leaves does. -/
theorem nodeRenders_iff_says (node : List Entry) :
    nodeRenders node = true ↔ ∃ leaf ∈ leaves node, leaf.Says := by
  cases node with
  | nil => simp [nodeRenders, leaves]
  | cons entry rest =>
    rw [nodeRenders, leaves, Bool.or_eq_true, exists_mem_append_iff, renders_iff_says entry,
      nodeRenders_iff_says rest]

theorem someRender_iff_says (children : List (List Entry)) :
    someRender children = true ↔ ∃ leaf ∈ childLeaves children, leaf.Says := by
  cases children with
  | nil => simp [someRender, childLeaves]
  | cons child rest =>
    rw [someRender, childLeaves, Bool.or_eq_true, exists_mem_append_iff,
      nodeRenders_iff_says child, someRender_iff_says rest]

end

end Condition

open Condition

/-! ## Filters -/

namespace Query

/-- A statement with a predicate behind it that has text. -/
def Gains (q q' : Query) (f : Fragment) : Prop :=
  f.sql ≠ "" ∧ q'.statement
    = ⟨q.statement.sql ++ " WHERE " ++ f.sql, q.statement.params ++ f.params⟩

theorem Gains.statement_ne {q q' : Query} {f : Fragment} (h : q.Gains q' f) :
    q'.statement ≠ q.statement := by
  intro heq
  have hlength : q'.statement.sql.length = q.statement.sql.length := by rw [heq]
  rw [h.2, String.length_append, String.length_append] at hlength
  have hword : " WHERE ".length = 7 := by decide
  omega

/-- A condition that says something filters the statement, guarded or not. -/
theorem exists_gains {q : Query} (hq : q.InOrder) {condition : Input Tree} {tree : Tree}
    {f : Fragment} (hc : condition.resolve readTree = .ok tree) (hf : predicate .and tree = .ok f)
    (hr : nodeRenders tree = true) (stage : Stage)
    (hs : q.stage.next? .filter = some stage) :
    ∃ q', q.step (.filter condition) = .ok q' ∧ q.Gains q' f := by
  have hclause : ∀ guarded, (Step.filter condition).clause? guarded
      = .ok (some (.filter, f.enclose "WHERE " "")) := by
    intro guarded
    rw [Step.clause?_filter hc, filterClause_eq hf, if_pos hr]
  obtain ⟨q', hq', -⟩ := exists_step stage hs (hclause _)
  obtain ⟨-, hstatement⟩ := statement_step hq hq'
  refine ⟨q', hq', ?_, ?_⟩
  · have hblank := isBlank_predicate hf
    rw [hr] at hblank
    simpa [Fragment.isBlank] using hblank
  · have hword : " WHERE " = " " ++ "WHERE " := by decide
    rw [hstatement, Step.fragments, hclause, Fragment.join_pair, hword]
    simp only [Fragment.sql_enclose, Fragment.params_enclose, String.append_empty,
      String.append_assoc]

/-- A guarded statement refuses a condition that says nothing. -/
theorem step_filter_of_isGuarded {q : Query} {condition : Input Tree} {tree : Tree} {f : Fragment}
    (hc : condition.resolve readTree = .ok tree) (hf : predicate .and tree = .ok f)
    (hr : nodeRenders tree = false) {stage : Stage} (hs : q.stage.next? .filter = some stage)
    (hg : q.stage.isGuarded = true) :
    q.step (.filter condition) = .error (.fault .unfiltered) := by
  have hclause : (Step.filter condition).clause? q.stage.isGuarded = .error .unfiltered := by
    rw [Step.clause?_filter hc, filterClause_eq hf, hr, hg]
    rfl
  have hkind : q.stage.next? (Step.filter condition).kind = some stage := hs
  rw [step, hkind, hclause]

/-- A statement without a guard takes a condition that says nothing, and stays as it is. -/
theorem exists_unfiltered {q : Query} (hq : q.InOrder) {condition : Input Tree} {tree : Tree}
    {f : Fragment} (hc : condition.resolve readTree = .ok tree) (hf : predicate .and tree = .ok f)
    (hr : nodeRenders tree = false) {stage : Stage} (hs : q.stage.next? .filter = some stage)
    (hg : q.stage.isGuarded = false) :
    ∃ q', q.step (.filter condition) = .ok q' ∧ q'.statement = q.statement := by
  have hclause : (Step.filter condition).clause? false = .ok none := by
    rw [Step.clause?_filter hc, filterClause_eq hf, hr]
    rfl
  obtain ⟨q', hq', -⟩ := exists_step stage hs (by rw [hg]; exact hclause)
  obtain ⟨-, hstatement⟩ := statement_step hq hq'
  refine ⟨q', hq', ?_⟩
  rw [hstatement, Step.fragments, hclause, Fragment.join_singleton]

/-- The stages of an UPDATE or DELETE that a filter may follow are guarded. -/
theorem filter_of_change {stage : Stage} (h : stage = .assigned ∨ stage = .deleting) :
    stage.next? .filter = some .mutationFiltered ∧ stage.isGuarded = true := by
  rcases h with rfl | rfl <;> exact ⟨rfl, rfl⟩

/-- An UPDATE or DELETE refuses a condition exactly if none of its leaves says anything, and
otherwise gains its predicate; a SELECT takes every condition, and stays as it is exactly if none of
the leaves says anything. -/
theorem step_filter_of_build {b : Builder} {start : Start} {steps : List Step} {q : Query}
    {condition : Input Tree} {tree : Tree} {f : Fragment} (hq : b.build start steps = .ok q)
    (hc : condition.resolve readTree = .ok tree) (hf : predicate .and tree = .ok f) :
    (q.stage = .assigned ∨ q.stage = .deleting →
      ((∃ fault : Fault, fault.kind = .emptyPayload ∧
          q.step (.filter condition) = .error (.fault fault)) ↔
        ¬∃ leaf ∈ leaves tree, leaf.Says) ∧
      ((∃ leaf ∈ leaves tree, leaf.Says) →
        ∃ q', q.step (.filter condition) = .ok q' ∧ q.Gains q' f)) ∧
    (q.stage = .sourced →
      ∃ q', q.step (.filter condition) = .ok q' ∧
        (q'.statement = q.statement ↔ ¬∃ leaf ∈ leaves tree, leaf.Says) ∧
        ((∃ leaf ∈ leaves tree, leaf.Says) → q.Gains q' f)) := by
  have hin := Builder.inOrder_build hq
  rw [← nodeRenders_iff_says]
  refine ⟨fun hchange => ?_, fun hselect => ?_⟩
  · obtain ⟨hs, hg⟩ := filter_of_change hchange
    by_cases hr : nodeRenders tree = true
    · obtain ⟨q', hq', hgains⟩ := exists_gains hin hc hf hr _ hs
      refine ⟨⟨?_, fun hnot => absurd hr hnot⟩, fun _ => ⟨q', hq', hgains⟩⟩
      rintro ⟨fault, -, hfault⟩
      rw [hq'] at hfault
      cases hfault
    · have hrefused := step_filter_of_isGuarded hc hf (Bool.eq_false_iff.2 hr) hs hg
      exact ⟨⟨fun _ => hr, fun _ => ⟨.unfiltered, rfl, hrefused⟩⟩, fun h => absurd h hr⟩
  · have hs : q.stage.next? .filter = some .filtered := by rw [hselect]; rfl
    have hg : q.stage.isGuarded = false := by rw [hselect]; rfl
    by_cases hr : nodeRenders tree = true
    · obtain ⟨q', hq', hgains⟩ := exists_gains hin hc hf hr _ hs
      exact ⟨q', hq', ⟨fun heq => absurd heq hgains.statement_ne, fun hnot => absurd hr hnot⟩,
        fun _ => hgains⟩
    · obtain ⟨q', hq', hsame⟩ := exists_unfiltered hin hc hf (Bool.eq_false_iff.2 hr) hs hg
      exact ⟨q', hq', ⟨fun _ => hr, fun _ => hsame⟩, fun h => absurd h hr⟩

/-- A group, an object of operators and a caller's predicate, and nothing said by any of them. -/
def hollow : Tree := [.group .or [[], [.column "a" (.ops []), .raw " " []]], .raw "" [.int 1]]

/-- The same with one value, two groups deep. -/
def vocal : Tree := [.group .or [[], [.group .and [[.column "a" (.value (.int 1))]]]], .raw "" []]

theorem step_filter_of_hollow_and_vocal :
    (∃ q, (Builder.mk none).build (.deleteFrom "users") [] = .ok q ∧
      ∃ fault : Fault, fault.kind = .emptyPayload ∧
        q.step (.filter (.ready hollow)) = .error (.fault fault)) ∧
    (∃ q q' f, (Builder.mk none).build (.update "users")
        [.set (.ready (Keyed.empty.insert "a" (.set .null)))] = .ok q ∧
      predicate .and vocal = .ok f ∧ q.step (.filter (.ready vocal)) = .ok q' ∧ q.Gains q' f) ∧
    (∃ q q', (Builder.mk none).build (.select (.ready [])) [.source "users" none] = .ok q ∧
      q.step (.filter (.ready hollow)) = .ok q' ∧ q'.statement = q.statement) := by
  have hsilent : ¬∃ leaf ∈ leaves hollow, leaf.Says := by
    rw [← nodeRenders_iff_says]
    decide
  have hsays : ∃ leaf ∈ leaves vocal, leaf.Says := by
    rw [← nodeRenders_iff_says]
    decide
  have hread : ∀ tree : Tree, (Input.ready tree).resolve readTree = .ok tree := fun _ => rfl
  obtain ⟨silence, hsilence⟩ : ∃ f, predicate .and hollow = .ok f := ⟨_, rfl⟩
  obtain ⟨f, hf⟩ : ∃ f, predicate .and vocal = .ok f := ⟨_, rfl⟩
  refine ⟨?_, ?_, ?_⟩
  · obtain ⟨q, hq, hs⟩ : ∃ q, (Builder.mk none).build (.deleteFrom "users") [] = .ok q ∧
        q.stage = .deleting := ⟨_, rfl, rfl⟩
    exact ⟨q, hq, (((step_filter_of_build hq (hread hollow) hsilence).1 (.inr hs)).1).2 hsilent⟩
  · obtain ⟨q, hq, hs⟩ : ∃ q, (Builder.mk none).build (.update "users")
        [.set (.ready (Keyed.empty.insert "a" (.set .null)))] = .ok q ∧
        q.stage = .assigned := ⟨_, rfl, rfl⟩
    obtain ⟨q', hq', hgains⟩ :=
      ((step_filter_of_build hq (hread vocal) hf).1 (.inl hs)).2 hsays
    exact ⟨q, q', f, hq, hf, hq', hgains⟩
  · obtain ⟨q, hq, hs⟩ : ∃ q, (Builder.mk none).build (.select (.ready []))
        [.source "users" none] = .ok q ∧ q.stage = .sourced := ⟨_, rfl, rfl⟩
    obtain ⟨q', hq', hsame, -⟩ := (step_filter_of_build hq (hread hollow) hsilence).2 hs
    exact ⟨q, q', hq, hq', hsame.2 hsilent⟩

end Query

end Sqlwright
