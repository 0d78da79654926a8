import Sqlwright.Proofs.Assembly
import Sqlwright.Proofs.Run

/-!
# Runs append

The stages of a statement follow the order of its slots, so the clauses of a run come in the order
in which they stand. The statement of a run is therefore what its calls add, in the order of the
calls, with a space between each two (`Program.statement_run`).
-/

namespace Sqlwright

/-! ## Stages and slots -/

/-- The slot that a call of a kind adds to. -/
def StepKind.slot? : StepKind → Option Slot
  | .source => some .source
  | .join => some .join
  | .set => some .set
  | .filter => some .filter
  | .group => some .group
  | .order => some .order
  | .limit => some .limit
  | .offset => some .offset
  | .rebind => none

/-- The last slot that may be filled at a stage. -/
def Stage.last : Stage → Slot
  | .projected => .select
  | .sourced => .join
  | .filtered | .mutationFiltered => .filter
  | .grouped => .group
  | .ordered | .mutationOrdered => .order
  | .limited | .mutationLimited => .limit
  | .paged => .offset
  | .updating => .update
  | .assigned => .set
  | .inserted => .insert
  | .deleting => .delete

namespace Stage

/-- No call leads back in the order of the slots. -/
theorem last_le_of_next? {stage after : Stage} {kind : StepKind}
    (h : stage.next? kind = some after) : stage.last.index ≤ after.last.index := by
  cases stage <;> cases kind <;> cases h <;> decide

/-- A call adds to a slot behind all that are filled, unless it is one more join. -/
theorem slot_of_next? {stage after : Stage} {kind : StepKind} {s : Slot}
    (h : stage.next? kind = some after) (hs : kind.slot? = some s) :
    s.isHead = false ∧ (stage.last.index < s.index ∨ stage.last = s ∧ s = .join) ∧
      s.index ≤ after.last.index := by
  cases stage <;> cases kind <;> cases h <;> cases hs <;> decide

end Stage

/-! ## What a call adds -/

/-- What a call adds to a statement: a fragment or nothing. -/
def Step.fragments (s : Step) : List Fragment :=
  match s.clause? false with
  | .ok (some clause) => [clause.2]
  | _ => []

/-- What an opening call begins a statement with. -/
def Start.fragments (s : Start) : List Fragment :=
  match s.clauses with
  | .ok clauses => clauses.map Prod.snd
  | .error _ => []

theorem isBlank_enclose {before after : String} (h : before ≠ "") (f : Fragment) :
    (f.enclose before after).isBlank = false := by
  simp [Fragment.isBlank, String.append_eq_empty_iff, h]

theorem isBlank_assignments {values : Assignments} {f : Fragment}
    (h : values.fragment = .ok f) : f.isBlank = false := by
  obtain ⟨-, rfl⟩ := Assignments.fragment_eq_ok_iff.1 h
  exact isBlank_enclose (by decide) _

theorem isBlank_selectList (fields : SelectList) : fields.fragment.isBlank = false := by
  rw [SelectList.fragment]
  split
  · rfl
  · exact isBlank_enclose (by decide) _

theorem isBlank_withLabel {f : Fragment} (h : f.isBlank = false) (label : Option String) :
    (f.withLabel label).isBlank = false := by
  rw [Fragment.withLabel]
  split
  · simp [Fragment.isBlank, String.append_eq_empty_iff]
  · exact h

theorem isBlank_countFragment (field : String) : (countFragment field).isBlank = false := by
  rw [countFragment]
  split <;> rfl

theorem isBlank_insertion {table : String} {options : InsertOptions} {rows : List Row}
    {f : Fragment} (h : Insertion.fragment table options rows = .ok f) : f.isBlank = false := by
  obtain ⟨first, others, values, -, -, rfl⟩ := Insertion.exists_of_fragment h
  simp [Fragment.isBlank, String.append_eq_empty_iff]

/-- The clause of a condition that compiles: its predicate, if it says something; if not, it is
for the guard to refuse it. -/
theorem filterClause_eq {guarded : Bool} {tree : Condition.Tree} {f : Fragment}
    (h : Condition.predicate .and tree = .ok f) :
    filterClause guarded tree
      = if Condition.nodeRenders tree then .ok (some (.filter, f.enclose "WHERE " ""))
        else if guarded then .error .unfiltered else .ok none := by
  rw [filterClause, h]
  show (if f.isBlank then _ else _) = _
  rw [Condition.isBlank_predicate h]
  cases Condition.nodeRenders tree <;> rfl

theorem Step.clause?_filter {condition : Input Condition.Tree} {tree : Condition.Tree}
    (h : condition.resolve Condition.readTree = .ok tree) (guarded : Bool) :
    (Step.filter condition).clause? guarded = filterClause guarded tree := by
  rw [Step.clause?, h]
  rfl

/-- The guard refuses a condition or has no say in its clause. -/
theorem filterClause_of_guarded {guarded : Bool} {tree : Condition.Tree}
    {clause : Option Clause} (h : filterClause guarded tree = .ok clause) :
    filterClause false tree = .ok clause := by
  simp only [filterClause, bind_eq_ok_iff] at h ⊢
  obtain ⟨f, hf, h⟩ := h
  refine ⟨f, hf, ?_⟩
  split at h
  · rename_i hb
    rw [if_pos hb]
    split at h
    · cases h
    · exact h
  · rename_i hb
    rw [if_neg hb]
    exact h

theorem Step.clause?_of_guarded {s : Step} {guarded : Bool} {clause : Option Clause}
    (h : s.clause? guarded = .ok clause) : s.clause? false = .ok clause := by
  cases s with
  | filter condition =>
    simp only [Step.clause?, bind_eq_ok_iff] at h ⊢
    obtain ⟨tree, htree, h⟩ := h
    exact ⟨tree, htree, filterClause_of_guarded h⟩
  | _ => exact h

/-- What a call adds is its clause, guarded or not. -/
theorem Step.fragments_eq {s : Step} {guarded : Bool} {clause : Option Clause}
    (h : s.clause? guarded = .ok clause) : s.fragments = (clause.map Prod.snd).toList := by
  rw [Step.fragments, Step.clause?_of_guarded h]
  cases clause <;> rfl

/-- The clause of a call stands in the slot of its kind, and has text. -/
theorem Step.slot_of_clause? {s : Step} {guarded : Bool} {clause : Clause}
    (h : s.clause? guarded = .ok (some clause)) :
    s.kind.slot? = some clause.1 ∧ clause.2.isBlank = false := by
  cases s with
  | source table label =>
    simp only [Step.clause?, bind_eq_ok_iff, pure_eq_ok_iff, Option.some.injEq] at h
    obtain ⟨-, -, rfl⟩ := h
    exact ⟨rfl, isBlank_enclose (by decide) _⟩
  | join kind table label criterion =>
    simp only [Step.clause?, bind_eq_ok_iff, pure_eq_ok_iff, Option.some.injEq] at h
    obtain ⟨-, -, rfl⟩ := h
    exact ⟨rfl, isBlank_enclose (by cases kind <;> decide) _⟩
  | set values =>
    simp only [Step.clause?, bind_eq_ok_iff, pure_eq_ok_iff, Option.some.injEq] at h
    obtain ⟨read, -, set, hset, rfl⟩ := h
    exact ⟨rfl, isBlank_assignments hset⟩
  | filter condition =>
    simp only [Step.clause?, filterClause, bind_eq_ok_iff] at h
    obtain ⟨tree, -, f, -, h⟩ := h
    split at h
    · split at h <;> cases h
    · cases h
      exact ⟨rfl, isBlank_enclose (by decide) _⟩
  | group fields =>
    rw [Step.clause?] at h
    split at h
    · cases h
    · cases h
      exact ⟨rfl, by simp [Fragment.isBlank, String.append_eq_empty_iff]⟩
  | order items =>
    rw [Step.clause?] at h
    split at h
    · cases h
    · cases h
      exact ⟨rfl, by simp [Fragment.isBlank, String.append_eq_empty_iff]⟩
  | limit count =>
    cases count with
    | none => cases h
    | some n => cases h; exact ⟨rfl, rfl⟩
  | offset count =>
    cases count with
    | none => cases h
    | some n => cases h; exact ⟨rfl, rfl⟩
  | rebind executor => cases h

/-! ## Statements of runs -/

theorem Fragment.join_join_cons (m : String) (f : Fragment) (fs gs : List Fragment) :
    join m (join m (f :: fs) :: gs) = join m (f :: fs ++ gs) := by
  cases gs with
  | nil => simp [join]
  | cons g gs =>
    rw [join, join, join, List.map_append,
      String.intercalate_append_of_ne_nil (by simp) (by simp)]
    simp [String.intercalate_cons_cons]

theorem Fragment.join_pair (m : String) (f g : Fragment) :
    join m [f, g] = ⟨f.sql ++ m ++ g.sql, f.params ++ g.params⟩ := by
  simp [join, String.intercalate_cons_cons]

theorem Fragment.join_singleton (m : String) (f : Fragment) : join m [f] = f := by
  simp [join]

namespace Query

/-- A query whose clauses came in the order of their slots. -/
def InOrder (q : Query) : Prop := q.clauses.Filled q.stage.last

/-- A call appends what it adds. -/
theorem statement_step {q q' : Query} {s : Step} (hq : q.InOrder) (h : q.step s = .ok q') :
    q'.InOrder ∧ q'.statement = Fragment.join " " (q.statement :: s.fragments) := by
  obtain ⟨stage, clause, hnext, hclause, rfl⟩ := step_eq_ok_iff.1 h
  rw [Step.fragments_eq hclause]
  cases clause with
  | none =>
    exact ⟨hq.mono (Stage.last_le_of_next? hnext), (Fragment.join_singleton _ _).symm⟩
  | some clause =>
    obtain ⟨hslot, hblank⟩ := Step.slot_of_clause? hclause
    obtain ⟨hhead, hbehind, hle⟩ := Stage.slot_of_next? hnext hslot
    obtain ⟨hfilled, hjoin⟩ := Clauses.Filled.assemble_add hq hhead hbehind hblank
    exact ⟨hfilled.mono hle, hjoin⟩

theorem statement_steps {q r : Query} {ss : List Step} (hq : q.InOrder)
    (h : q.steps ss = .ok r) :
    r.InOrder ∧ r.statement = Fragment.join " " (q.statement :: ss.flatMap Step.fragments) := by
  induction ss generalizing q with
  | nil => cases h; exact ⟨hq, (Fragment.join_singleton _ _).symm⟩
  | cons s ss ih =>
    obtain ⟨q', hs, hss⟩ := steps_cons_eq_ok_iff.1 h
    obtain ⟨hq', hstatement⟩ := statement_step hq hs
    obtain ⟨hr, hrest⟩ := ih hq' hss
    refine ⟨hr, ?_⟩
    rw [hrest, hstatement, Fragment.join_join_cons, List.flatMap_cons, List.cons_append]

end Query

/-- A single head begins a statement. -/
theorem inOrder_head (s : Slot) (stage : Stage) (hs : s.isHead = true)
    (hl : s.index ≤ stage.last.index) {f : Fragment} (hf : f.isBlank = false)
    (executor : Option Executor) :
    (Query.mk stage (Clauses.empty.add s f) executor).InOrder ∧ [f] ≠ [] ∧
      (Clauses.empty.add s f).assemble = Fragment.join " " [f] := by
  obtain ⟨hfilled, hassemble⟩ := Clauses.filled_head hs hf
  exact ⟨hfilled.mono hl, by simp, by rw [hassemble, Fragment.join_singleton]⟩

/-- An opening call begins a statement with what it adds. -/
theorem Builder.statement_start {b : Builder} {s : Start} {q : Query} (h : b.start s = .ok q) :
    q.InOrder ∧ s.fragments ≠ [] ∧ q.statement = Fragment.join " " s.fragments := by
  obtain ⟨clauses, hclauses, rfl⟩ := Builder.start_eq_ok_iff.1 h
  rw [Start.fragments, hclauses]
  cases s with
  | select fields =>
    simp only [Start.clauses, bind_eq_ok_iff, pure_eq_ok_iff] at hclauses
    obtain ⟨list, -, rfl⟩ := hclauses
    exact inOrder_head .select .projected rfl (by decide) (isBlank_selectList list) _
  | count field label =>
    cases hclauses
    exact inOrder_head .count .projected rfl (by decide)
      (isBlank_withLabel (isBlank_countFragment field) label) _
  | aggregate function field label =>
    cases hclauses
    have hblank : Fragment.isBlank ⟨"SELECT " ++ function.word ++ "(??)", [.text field]⟩
        = false := by
      cases function <;> rfl
    exact inOrder_head .select .projected rfl (by decide) (isBlank_withLabel hblank label) _
  | update table =>
    simp only [Start.clauses, bind_eq_ok_iff, pure_eq_ok_iff] at hclauses
    obtain ⟨-, -, rfl⟩ := hclauses
    exact inOrder_head .update .updating rfl (by decide) rfl _
  | updateWith table values options =>
    simp only [Start.clauses, bind_eq_ok_iff, pure_eq_ok_iff] at hclauses
    obtain ⟨-, -, read, -, prepared, -, set, hset, rfl⟩ := hclauses
    have hhead : Fragment.isBlank ⟨"UPDATE ??", [.text table]⟩ = false := rfl
    obtain ⟨hfilled, hassemble⟩ := Clauses.filled_head (s := .update) rfl hhead
    have hbehind : Slot.update.index < Slot.set.index := by decide
    obtain ⟨hset, hjoin⟩ :=
      hfilled.assemble_add (s := .set) rfl (.inl hbehind) (isBlank_assignments hset)
    rw [hassemble] at hjoin
    exact ⟨hset, by simp, hjoin⟩
  | insert table rows options =>
    simp only [Start.clauses, bind_eq_ok_iff, pure_eq_ok_iff] at hclauses
    obtain ⟨-, -, read, -, f, hf, rfl⟩ := hclauses
    exact inOrder_head .insert .inserted rfl (by decide) (isBlank_insertion hf) _
  | deleteFrom table =>
    simp only [Start.clauses, bind_eq_ok_iff, pure_eq_ok_iff] at hclauses
    obtain ⟨-, -, rfl⟩ := hclauses
    exact inOrder_head .delete .deleting rfl (by decide) rfl _

/-- What a run of a builder reaches has its clauses in the order of their slots. -/
theorem Builder.inOrder_build {b : Builder} {start : Start} {steps : List Step} {q : Query}
    (h : b.build start steps = .ok q) : q.InOrder := by
  obtain ⟨q₀, hstart, hsteps⟩ := Builder.build_eq_ok_iff.1 h
  obtain ⟨hq₀, -, -⟩ := Builder.statement_start hstart
  exact (Query.statement_steps hq₀ hsteps).1

/-- What the calls of a program add. -/
def Program.fragments (p : Program) : List Fragment :=
  p.start.fragments ++ p.steps.flatMap Step.fragments

/-- The statement of a program is what its calls add, in their order. -/
theorem Program.statement_run {b : Builder} {p : Program} {q : Query}
    (h : b.build p.start p.steps = .ok q) :
    q.statement = Fragment.join " " p.fragments := by
  obtain ⟨q₀, hstart, hsteps⟩ := Builder.build_eq_ok_iff.1 h
  obtain ⟨hq₀, hne, hopened⟩ := Builder.statement_start hstart
  obtain ⟨-, hrun⟩ := Query.statement_steps hq₀ hsteps
  obtain ⟨f, fs, hfs⟩ := List.exists_cons_of_ne_nil hne
  rw [hrun, hopened, Program.fragments, hfs, Fragment.join_join_cons]

/-! ## Calls that add nothing -/

/-- A call that adds nothing: a condition that says nothing, a list without entries, no number, or
another executor. -/
def Step.IsSilent : Step → Prop
  | .filter condition =>
    ∃ tree, condition.resolve Condition.readTree = .ok tree ∧ Condition.nodeRenders tree = false
  | .group fields => fields = []
  | .order items => items = []
  | .limit count | .offset count => count = none
  | .rebind _ => True
  | .source _ _ | .join _ _ _ _ | .set _ => False

theorem isSilent_filter_iff {condition : Input Condition.Tree} {guarded : Bool}
    {clause : Option Clause} (h : (Step.filter condition).clause? guarded = .ok clause) :
    (Step.filter condition).IsSilent ↔ clause = none := by
  obtain ⟨tree, htree, hfilter⟩ := bind_eq_ok_iff.1 h
  obtain ⟨f, hf, -⟩ : ∃ f, Condition.predicate .and tree = .ok f ∧ _ := bind_eq_ok_iff.1 hfilter
  have hsilent : (Step.filter condition).IsSilent ↔ Condition.nodeRenders tree = false := by
    rw [Step.IsSilent, htree]
    simp
  rw [hsilent]
  rw [filterClause_eq hf] at hfilter
  cases hr : Condition.nodeRenders tree with
  | true =>
    rw [hr] at hfilter
    cases hfilter
    simp
  | false =>
    rw [hr] at hfilter
    cases guarded with
    | true => cases hfilter
    | false => cases hfilter; simp

/-- A call that is not refused adds no clause exactly if it is silent. -/
theorem Step.isSilent_iff {s : Step} {guarded : Bool} {clause : Option Clause}
    (h : s.clause? guarded = .ok clause) : s.IsSilent ↔ clause = none := by
  cases s with
  | source table label =>
    simp only [Step.clause?, bind_eq_ok_iff, pure_eq_ok_iff] at h
    obtain ⟨-, -, rfl⟩ := h
    simp [Step.IsSilent]
  | join kind table label criterion =>
    simp only [Step.clause?, bind_eq_ok_iff, pure_eq_ok_iff] at h
    obtain ⟨-, -, rfl⟩ := h
    simp [Step.IsSilent]
  | set values =>
    simp only [Step.clause?, bind_eq_ok_iff, pure_eq_ok_iff] at h
    obtain ⟨read, -, set, -, rfl⟩ := h
    simp [Step.IsSilent]
  | filter condition => exact isSilent_filter_iff h
  | group fields =>
    cases fields <;> cases h <;> simp [Step.IsSilent]
  | order items =>
    cases items <;> cases h <;> simp [Step.IsSilent]
  | limit count =>
    cases count <;> cases h <;> simp [Step.IsSilent]
  | offset count =>
    cases count <;> cases h <;> simp [Step.IsSilent]
  | rebind executor => cases h; simp [Step.IsSilent]

/-- What a call does to a statement: nothing if it is silent, and else it appends its own text
after a space, and its own parameters. -/
theorem Query.statement_of_step {q q' : Query} {s : Step} (hq : q.InOrder)
    (h : q.step s = .ok q') :
    (s.IsSilent → q'.statement = q.statement) ∧
    (¬s.IsSilent → ∃ f, s.fragments = [f] ∧
      q'.statement.sql = q.statement.sql ++ " " ++ f.sql ∧
      q'.statement.params = q.statement.params ++ f.params) := by
  obtain ⟨-, hstatement⟩ := statement_step hq h
  obtain ⟨stage, clause, -, hclause, -⟩ := step_eq_ok_iff.1 h
  rw [Step.isSilent_iff hclause]
  rw [Step.fragments_eq hclause] at hstatement ⊢
  cases clause with
  | none => exact ⟨fun _ => hstatement.trans (Fragment.join_singleton _ _), by simp⟩
  | some clause =>
    have hpair := hstatement.trans (Fragment.join_pair " " q.statement clause.2)
    exact ⟨by simp, fun _ => ⟨clause.2, rfl, by rw [hpair], by rw [hpair]⟩⟩

/-- The statement of a run is what its calls add, in their order, with a space between each two,
and no call that follows moves or changes any of it: it appends what it adds of its own. -/
theorem statement_of_calls {b : Builder} {start : Start} {steps : List Step} {q : Query}
    (h : b.build start steps = .ok q) :
    q.statement.sql
      = " ".intercalate ((start.fragments ++ steps.flatMap Step.fragments).map Fragment.sql) ∧
    q.statement.params
      = (start.fragments ++ steps.flatMap Step.fragments).flatMap Fragment.params ∧
    ∀ s q', q.step s = .ok q' →
      (s.IsSilent → q'.statement = q.statement) ∧
      (¬s.IsSilent → ∃ f, s.fragments = [f] ∧
        q'.statement.sql = q.statement.sql ++ " " ++ f.sql ∧
        q'.statement.params = q.statement.params ++ f.params) := by
  have hstatement := Program.statement_run (p := ⟨start, steps⟩) h
  refine ⟨by rw [hstatement]; rfl, by rw [hstatement]; rfl, fun s q' hs => ?_⟩
  exact Query.statement_of_step (Builder.inOrder_build h) hs

/-- Two joins, one of them under a label, and an empty list of groups. -/
def joined : List Step :=
  [.source "users" (some "u"), .join .left "orders" none "orders.user_id = u.id",
   .join .inner "teams" (some "t") "t.id = u.team_id", .group []]

theorem statement_of_joined :
    ∃ q, (Builder.mk none).build (.count "id" none) joined = .ok q ∧
      q.statement.sql = "SELECT COUNT(??) FROM ?? AS ?? "
        ++ "LEFT JOIN ?? ON orders.user_id = u.id INNER JOIN ?? AS ?? ON t.id = u.team_id" ∧
      q.statement.params = [.text "id", .text "users", .text "u", .text "orders", .text "teams",
        .text "t"] ∧
      (∃ q', q.step (.limit none) = .ok q' ∧ q'.statement = q.statement) ∧
      ∃ q' f, q.step (.limit (some 3)) = .ok q' ∧ (Step.limit (some 3)).fragments = [f] ∧
        q'.statement.sql = q.statement.sql ++ " " ++ f.sql ∧
        q'.statement.params = q.statement.params ++ f.params := by
  obtain ⟨q, hq, hnone, hsome⟩ : ∃ q, (Builder.mk none).build (.count "id" none) joined = .ok q ∧
      (∃ q', q.step (.limit none) = .ok q') ∧ ∃ q', q.step (.limit (some 3)) = .ok q' :=
    ⟨_, rfl, ⟨_, rfl⟩, ⟨_, rfl⟩⟩
  obtain ⟨hsql, hparams, hstep⟩ := statement_of_calls hq
  obtain ⟨q₁, h₁⟩ := hnone
  obtain ⟨q₂, h₂⟩ := hsome
  have hloud : ¬(Step.limit (some 3)).IsSilent := by simp [Step.IsSilent]
  obtain ⟨f, hf, hgrown⟩ := (hstep _ q₂ h₂).2 hloud
  exact ⟨q, hq, hsql, hparams, ⟨q₁, h₁, (hstep _ q₁ h₁).1 rfl⟩, q₂, f, h₂, hf, hgrown⟩

end Sqlwright
