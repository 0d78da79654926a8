import Sqlwright.Proofs.Guard

/-!
# Reads with a required condition

A read that requires a condition refuses one without entries. A condition with entries may still
say nothing, and then the statement reads every row: whether there is a WHERE clause depends on
what the condition says and not on how many entries it has.
-/

namespace Sqlwright

open Condition

theorem fragments_filterStep {tree : Tree} {f : Fragment} (h : predicate .and tree = .ok f) :
    (Table.filterStep tree).fragments
      = if nodeRenders tree then [f.enclose "WHERE " ""] else [] := by
  rw [Step.fragments, Table.filterStep, Step.clause?_filter rfl, filterClause_eq h]
  cases nodeRenders tree <;> rfl

theorem Step.exists_order_clause (items : List OrderItem) (guarded : Bool) :
    ∃ clause, (Step.order items).clause? guarded = .ok clause := by
  rw [Step.clause?]
  split <;> exact ⟨_, rfl⟩

/-- Order, limit and offset are never refused behind a filter. -/
theorem Query.exists_page {q : Query} (h : q.stage = .filtered) (order : List OrderItem)
    (limit offset : Option UInt64) :
    ∃ r, q.steps [.order order, .limit limit, .offset offset] = .ok r := by
  obtain ⟨clause, hclause⟩ := Step.exists_order_clause order q.stage.isGuarded
  obtain ⟨q₁, h₁, hs₁⟩ := Query.exists_step .ordered (by rw [h]; rfl) hclause
  obtain ⟨q₂, h₂, hs₂⟩ := Query.exists_step (q := q₁) (s := .limit limit) .limited
    (by rw [hs₁]; rfl) rfl
  obtain ⟨q₃, h₃, -⟩ := Query.exists_step (q := q₂) (s := .offset offset) .paged
    (by rw [hs₂]; rfl) rfl
  refine ⟨q₃, ?_⟩
  simp only [Query.steps, h₁, h₂, h₃]

namespace Table

/-- A read of a table that requires a condition. `tail` holds the calls behind the filter. -/
structure Requires (t : Table) (fields : Input SelectList) (condition : Input Tree)
    (tail : List Step) (result : Except Refusal Query) : Prop where
  /-- A condition without entries is refused. -/
  rejected : condition.resolve readTree = .ok [] →
    ∃ fault : Fault, fault.kind = .emptyPayload ∧ result = .error (.fault fault)
  /-- A condition that says something is kept, as a predicate with text. -/
  filtered : ∀ tree q, condition.resolve readTree = .ok tree → result = .ok q →
    nodeRenders tree = true → ∃ f, predicate .and tree = .ok f ∧ f.sql ≠ "" ∧
      q.statement = Fragment.join " " ((Start.select fields).fragments
        ++ t.sourceStep.fragments ++ [f.enclose "WHERE " ""] ++ tail.flatMap Step.fragments)
  /-- A condition with entries that say nothing is lost. -/
  unfiltered : ∀ tree q, condition.resolve readTree = .ok tree → result = .ok q →
    nodeRenders tree = false → tree ≠ [] ∧
      q.statement = Fragment.join " " ((Start.select fields).fragments
        ++ t.sourceStep.fragments ++ tail.flatMap Step.fragments)
  /-- Nothing but the fields and the condition themselves can be at fault. -/
  succeeds : ∀ list tree f, fields.resolve SelectList.read = .ok list →
    condition.resolve readTree = .ok tree → tree ≠ [] → predicate .and tree = .ok f →
      ∃ q, result = .ok q

variable (t : Table)

theorem isBlankText_name : Text.isBlankText t.config.name = false := by
  have husable := t.usable
  rw [TableConfig.fault?] at husable
  split at husable
  · cases husable
  · rename_i h
    exact Bool.eq_false_iff.2 h

/-- A table that was described can be read from. -/
theorem exists_source {list : SelectList} {fields : Input SelectList}
    (h : fields.resolve SelectList.read = .ok list) :
    ∃ q₀ q, t.builder.start (.select fields) = .ok q₀ ∧ q₀.step t.sourceStep = .ok q ∧
      q.stage = .sourced := by
  have hclauses : (Start.select fields).clauses = .ok [(.select, list.fragment)] := by
    rw [Start.clauses, h]
    rfl
  have hsource : ∀ guarded, t.sourceStep.clause? guarded
      = .ok (some (.source,
        (TableRef.read t.config.name none).fragment.enclose "FROM " "")) := by
    intro guarded
    rw [sourceStep, Step.clause?, requireTable, if_neg (by simp [isBlankText_name t])]
    rfl
  obtain ⟨q₀, hstart, hs₀⟩ : ∃ q₀, t.builder.start (.select fields) = .ok q₀ ∧
      q₀.stage = .projected := ⟨_, Builder.start_eq_ok_iff.2 ⟨_, hclauses, rfl⟩, rfl⟩
  obtain ⟨q, hq, hstage⟩ := Query.exists_step .sourced (by rw [hs₀]; rfl) (hsource _)
  exact ⟨q₀, q, hstart, hq, hstage⟩

/-- The read that all reads with a required condition are. -/
def findWhere (operation : String) (fields : Input SelectList) (condition : Input Tree)
    (tail : List Step) : Except Refusal Query := do
  let tree ← t.requireCondition operation condition
  t.builder.build (.select fields) (t.sourceStep :: filterStep tree :: tail)

theorem findWhere_eq_ok_iff {t : Table} {operation : String} {fields : Input SelectList}
    {condition : Input Tree} {tail : List Step} {q : Query} :
    t.findWhere operation fields condition tail = .ok q ↔
      ∃ tree, condition.resolve readTree = .ok tree ∧ tree ≠ [] ∧
        t.builder.build (.select fields) (t.sourceStep :: filterStep tree :: tail) = .ok q := by
  simp only [findWhere, bind_eq_ok_iff, requireCondition_eq_ok_iff, and_assoc]

theorem statement_findWhere {operation : String} {fields : Input SelectList}
    {condition : Input Tree} {tail : List Step} {tree : Tree} {q : Query}
    (hc : condition.resolve readTree = .ok tree)
    (h : t.findWhere operation fields condition tail = .ok q) :
    tree ≠ [] ∧ ∃ f, predicate .and tree = .ok f ∧
      q.statement = Fragment.join " " ((Start.select fields).fragments
        ++ t.sourceStep.fragments ++ (if nodeRenders tree then [f.enclose "WHERE " ""] else [])
        ++ tail.flatMap Step.fragments) := by
  obtain ⟨tree', hc', hne, hbuild⟩ := findWhere_eq_ok_iff.1 h
  obtain rfl : tree' = tree := Except.ok.inj (hc'.symm.trans hc)
  have hstatement := Program.statement_run
    (p := ⟨.select fields, t.sourceStep :: filterStep tree' :: tail⟩) hbuild
  obtain ⟨q₀, -, hsteps⟩ := Builder.build_eq_ok_iff.1 hbuild
  obtain ⟨q₁, -, hsteps⟩ := Query.steps_cons_eq_ok_iff.1 hsteps
  obtain ⟨q₂, hfilter, -⟩ := Query.steps_cons_eq_ok_iff.1 hsteps
  obtain ⟨-, clause, -, hclause, -⟩ := Query.step_eq_ok_iff.1 hfilter
  obtain ⟨f, hf, -⟩ : ∃ f, predicate .and tree' = .ok f ∧ _ := bind_eq_ok_iff.1 hclause
  refine ⟨hne, f, hf, ?_⟩
  rw [hstatement, Program.fragments, List.flatMap_cons, List.flatMap_cons,
    fragments_filterStep hf, List.append_assoc, List.append_assoc]

theorem requires_findWhere {operation : String} {fields : Input SelectList}
    {condition : Input Tree} {tail : List Step}
    (htail : ∀ q : Query, q.stage = .filtered → ∃ r, q.steps tail = .ok r) :
    t.Requires fields condition tail (t.findWhere operation fields condition tail) where
  rejected hc := by
    refine ⟨.conditionRequired t.config.name operation, rfl, ?_⟩
    rw [findWhere, requireCondition, hc]
    rfl
  filtered tree q hc hq hr := by
    obtain ⟨-, f, hf, hstatement⟩ := t.statement_findWhere hc hq
    have hblank := isBlank_predicate hf
    rw [hr] at hblank
    rw [if_pos hr] at hstatement
    exact ⟨f, hf, by simpa [Fragment.isBlank] using hblank, hstatement⟩
  unfiltered tree q hc hq hr := by
    obtain ⟨hne, f, -, hstatement⟩ := t.statement_findWhere hc hq
    rw [if_neg (by simp [hr]), List.append_nil] at hstatement
    exact ⟨hne, hstatement⟩
  succeeds list tree f hl hc hne hf := by
    -- no stage of a SELECT is guarded, so the filter is accepted whatever its text is
    obtain ⟨q₀, q₁, hstart, hsource, hs₁⟩ := t.exists_source hl
    have hguard : q₁.stage.isGuarded = false := by rw [hs₁]; rfl
    obtain ⟨clause, hclause⟩ : ∃ clause,
        (filterStep tree).clause? q₁.stage.isGuarded = .ok clause := by
      rw [hguard, filterStep, Step.clause?_filter rfl, filterClause_eq hf]
      cases nodeRenders tree <;> exact ⟨_, rfl⟩
    obtain ⟨q₂, hfilter, hs₂⟩ := Query.exists_step .filtered (by rw [hs₁]; rfl) hclause
    obtain ⟨r, hr⟩ := htail q₂ hs₂
    refine ⟨r, findWhere_eq_ok_iff.2 ⟨tree, hc, hne, ?_⟩⟩
    refine Builder.build_eq_ok_iff.2 ⟨q₀, hstart, ?_⟩
    exact Query.steps_cons_eq_ok_iff.2
      ⟨q₁, hsource, Query.steps_cons_eq_ok_iff.2 ⟨q₂, hfilter, hr⟩⟩

/-- Finding one row, and finding rows by a condition: a condition without entries is refused, one
that says something filters the statement, and one with entries that say nothing is lost. -/
theorem requires_find (fields : Input SelectList) (condition : Input Tree)
    (order : List OrderItem) (limit offset : Option UInt64) :
    t.Requires fields condition [.order order, .limit (some 1)]
        (t.findOne fields condition order) ∧
      t.Requires fields condition
        [.order order, .limit limit, .offset (limit.bind fun _ => offset)]
        (t.findAll fields (some condition) order limit offset) := by
  refine ⟨t.requires_findWhere fun q hq => ?_, t.requires_findWhere fun q hq => ?_⟩
  · obtain ⟨r, hr⟩ := Query.exists_page hq order (some 1) none
    exact Query.exists_steps_take hr 2
  · exact Query.exists_page hq order limit _

/-- A condition that has an entry and says nothing is not refused: the read has no filter. -/
theorem findOne_of_no_operators :
    ∃ tree q, Input.resolve readTree (.document (.object [("a", .object [])])) = .ok tree ∧
      nodeRenders tree = false ∧
      users.findOne (.ready []) (.document (.object [("a", .object [])])) [] = .ok q ∧
      q.statement = ⟨"SELECT * FROM ?? LIMIT ?", [.text "users", .uint 1]⟩ :=
  ⟨[.column "a" (.ops [])], _, rfl, rfl, rfl, rfl⟩

theorem findOne_of_value :
    ∃ q f, users.findOne (.ready []) (.document (.object [("a", .text "x")])) [] = .ok q ∧
      predicate .and [.column "a" (.value (.text "x"))] = .ok f ∧ f.sql ≠ "" ∧
      q.statement = Fragment.join " " ((Start.select (.ready [])).fragments
        ++ users.sourceStep.fragments ++ [f.enclose "WHERE " ""]
        ++ [Step.order [], .limit (some 1)].flatMap Step.fragments) := by
  have hfind := (requires_find users (.ready []) (.document (.object [("a", .text "x")])) [] none
    none).1
  obtain ⟨q, hq⟩ := hfind.succeeds [] _ _ rfl rfl (by simp) rfl
  obtain ⟨f, hf, hne, hstatement⟩ := hfind.filtered _ q rfl hq rfl
  exact ⟨q, f, hq, hf, hne, hstatement⟩

end Table

end Sqlwright
