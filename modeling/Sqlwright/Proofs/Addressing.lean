import Mathlib.Data.List.TakeWhile
import Sqlwright.Proofs.Change

/-!
# The table of a statement

An UPDATE, INSERT or DELETE names its table where it opens, and any other statement behind FROM.
What is given there as a table may be a table and its label, and is read as such; what an opening
call is given is the name as it stands. An operation on a table hands both the name of its
description, so all of them address one table exactly if that name has no space
(`Operation.table?_of_run`).
-/

namespace Sqlwright

/-! ## Parts of a statement -/

/-- One fragment is a part of another, text and parameters alike. -/
def Fragment.Within (f g : Fragment) : Prop :=
  ∃ front back : Fragment, g.sql = front.sql ++ f.sql ++ back.sql ∧
    g.params = front.params ++ f.params ++ back.params

namespace Clauses

theorem within_place_self (done : Statement) (s : Slot) {f : Fragment}
    (hf : f.isBlank = false) : f.Within (place done s f) := by
  refine ⟨⟨if s.isHead || done.isBlank then done.sql else done.sql ++ " ", done.params⟩, .empty,
    ?_, ?_⟩
  · simp [place, hf, Fragment.empty]
  · simp [place, hf, Fragment.empty]

theorem within_place {g : Fragment} {done : Statement} (h : g.Within done) (s : Slot)
    (f : Fragment) : g.Within (place done s f) := by
  obtain ⟨front, back, hsql, hparams⟩ := h
  rw [place]
  split
  · exact ⟨front, back, hsql, hparams⟩
  · refine ⟨front, ⟨back.sql ++ (if s.isHead || done.isBlank then "" else " ") ++ f.sql,
      back.params ++ f.params⟩, ?_, ?_⟩
    · split <;> simp [hsql, String.append_assoc]
    · simp [hparams]

theorem within_placeAll (c : Clauses) {g : Fragment} {done : Statement} (h : g.Within done)
    (slots : List Slot) : g.Within (c.placeAll slots done) := by
  induction slots generalizing done with
  | nil => exact h
  | cons s slots ih =>
    rw [placeAll, List.foldl_cons]
    exact ih (within_place h s _)

/-- A clause is a part of the statement. -/
theorem within_assemble {c : Clauses} {s : Slot} (h : (c.slot s).isBlank = false) :
    (c.slot s).Within c.assemble := by
  rw [c.assemble_eq_placeAll s]
  exact within_placeAll c (within_place_self _ s h) s.behind

end Clauses

/-! ## The clause that names the table -/

/-- The slots whose clauses name the table of a statement. -/
def Slot.tables : List Slot := [.update, .insert, .delete, .source]

namespace Query

/-- The clause that names the table of a statement. -/
def tableClause? (q : Query) : Option Fragment :=
  (Slot.tables.map q.clauses.slot).find? fun f => !f.isBlank

/-- The parameter that names the table of a statement. -/
def table? (q : Query) : Option Value := q.tableClause?.bind fun f => f.params.head?

/-- The parameter that names the table is the first of a part of the statement. -/
theorem exists_within_of_table? {q : Query} {v : Value} (h : q.table? = some v) :
    ∃ f : Fragment, f.Within q.statement ∧ f.params.head? = some v := by
  obtain ⟨f, hf, hv⟩ := Option.bind_eq_some_iff.1 h
  obtain ⟨s, -, rfl⟩ := List.mem_map.1 (List.mem_of_find?_eq_some hf)
  have hblank := List.find?_some hf
  exact ⟨_, Clauses.within_assemble (by simpa using hblank), hv⟩

end Query

/-- The table that an opening call names. -/
def Start.table? : Start → Option String
  | .update table | .updateWith table _ _ | .insert table _ _ | .deleteFrom table => some table
  | _ => none

/-- The table that a call names as the source of a statement. -/
def Step.table? : Step → Option String
  | .source table label => some (TableRef.read table label).name
  | _ => none

theorem TableRef.head?_params_fragment (r : TableRef) :
    r.fragment.params.head? = some (.text r.name) := by
  rw [TableRef.fragment]
  split <;> rfl

/-- A statement is opened with the table of its opening call, or with none. -/
theorem Builder.table?_start {b : Builder} {s : Start} {q : Query} (h : b.start s = .ok q) :
    q.table? = s.table?.map .text ∧ (q.stage = .projected → q.tableClause? = none) := by
  obtain ⟨clauses, hclauses, rfl⟩ := Builder.start_eq_ok_iff.1 h
  cases s with
  | select fields =>
    simp only [Start.clauses, bind_eq_ok_iff, pure_eq_ok_iff] at hclauses
    obtain ⟨list, -, rfl⟩ := hclauses
    exact ⟨rfl, fun _ => rfl⟩
  | count field label =>
    cases hclauses
    exact ⟨rfl, fun _ => rfl⟩
  | aggregate function field label =>
    cases hclauses
    exact ⟨rfl, fun _ => rfl⟩
  | update table =>
    simp only [Start.clauses, bind_eq_ok_iff, pure_eq_ok_iff] at hclauses
    obtain ⟨-, -, rfl⟩ := hclauses
    exact ⟨rfl, fun hstage => by cases hstage⟩
  | updateWith table values options =>
    simp only [Start.clauses, bind_eq_ok_iff, pure_eq_ok_iff] at hclauses
    obtain ⟨-, -, read, -, prepared, -, set, -, rfl⟩ := hclauses
    exact ⟨rfl, fun hstage => by cases hstage⟩
  | insert table rows options =>
    simp only [Start.clauses, bind_eq_ok_iff, pure_eq_ok_iff] at hclauses
    obtain ⟨-, -, read, -, f, hf, rfl⟩ := hclauses
    have hclause : Query.tableClause?
        ⟨.inserted, Clauses.empty.add .insert f, b.executor⟩ = some f := by
      have hslots : Slot.tables.map (Clauses.empty.add .insert f).slot
          = [.empty, f, .empty, .empty] := rfl
      have hblank : Fragment.empty.isBlank = true := rfl
      rw [Query.tableClause?, hslots]
      simp [isBlank_insertion hf, hblank]
    obtain ⟨first, others, values, -, -, rfl⟩ := Insertion.exists_of_fragment hf
    refine ⟨?_, fun hstage => by cases hstage⟩
    show Query.table? ⟨.inserted, _, _⟩ = _
    rw [Query.table?, List.foldl_cons, List.foldl_nil, hclause]
    rfl
  | deleteFrom table =>
    simp only [Start.clauses, bind_eq_ok_iff, pure_eq_ok_iff] at hclauses
    obtain ⟨-, -, rfl⟩ := hclauses
    exact ⟨rfl, fun hstage => by cases hstage⟩

namespace Query

/-- Only a call for the source changes what names the table. -/
theorem tableClause?_step {q q' : Query} {s : Step} (h : q.step s = .ok q')
    (hs : s.kind ≠ .source) : q'.tableClause? = q.tableClause? := by
  have hslot : ∀ slot ∈ Slot.tables, s.kind.slot? ≠ some slot := by
    revert hs
    cases s.kind <;> decide
  have hsame : Slot.tables.map q'.clauses.slot = Slot.tables.map q.clauses.slot :=
    List.map_congr_left fun slot hm => slot_step_of_ne h (hslot slot hm)
  rw [tableClause?, tableClause?, hsame]

theorem tableClause?_source {q q' : Query} {table : String} {label : Option String}
    (h : q.step (.source table label) = .ok q') (hq : q.tableClause? = none) :
    q'.tableClause? = some ((TableRef.read table label).fragment.enclose "FROM " "") := by
  obtain ⟨stage, clause, -, hclause, rfl⟩ := step_eq_ok_iff.1 h
  simp only [Step.clause?, bind_eq_ok_iff, pure_eq_ok_iff] at hclause
  obtain ⟨-, -, rfl⟩ := hclause
  have hblank : ∀ f : Fragment, (f.enclose "FROM " "").isBlank = false :=
    isBlank_enclose (by decide)
  rw [tableClause?, Slot.tables] at hq ⊢
  simp only [List.map_cons, List.map_nil, List.find?_eq_none, List.forall_mem_cons,
    Bool.not_eq_true', Bool.not_eq_false] at hq
  obtain ⟨hupdate, hinsert, hdelete, -⟩ := hq
  simp [addClause, Clauses.add, Clauses.put, hupdate, hinsert, hdelete, hblank]

end Query

namespace Stage

theorem source_of_next? {stage after : Stage} (h : stage.next? .source = some after) :
    stage = .projected ∧ after = .sourced := by
  cases stage <;> cases h
  exact ⟨rfl, rfl⟩

/-- No call leads to the stage of a statement without a source. -/
theorem projected_of_next? {stage : Stage} {kind : StepKind}
    (h : stage.next? kind = some .projected) : stage = .projected := by
  cases stage <;> cases kind <;> cases h
  rfl

end Stage

/-- The table of a run is what it opened with, or else its first source. -/
theorem Query.table?_steps {q r : Query} {ss : List Step} (h : q.steps ss = .ok r)
    (hq : q.stage = .projected → q.tableClause? = none) :
    r.table? = q.table?.or ((ss.findSome? Step.table?).map .text) := by
  induction ss generalizing q with
  | nil =>
    cases h
    simp
  | cons s ss ih =>
    obtain ⟨q', hs, hss⟩ := steps_cons_eq_ok_iff.1 h
    obtain ⟨stage, clause, hnext, -, hq'⟩ := step_eq_ok_iff.1 hs
    have hstage : q'.stage = stage := by rw [← hq']
    by_cases hkind : s.kind = .source
    · -- a source is called for once, since it leaves the only stage that offers it
      obtain ⟨table, label, rfl⟩ : ∃ table label, s = .source table label := by
        cases s <;> cases hkind
        exact ⟨_, _, rfl⟩
      obtain ⟨hprojected, rfl⟩ := Stage.source_of_next? hnext
      have hnone := hq hprojected
      have hsource := tableClause?_source hs hnone
      have htable : q'.table? = some (.text (TableRef.read table label).name) := by
        rw [table?, hsource]
        exact TableRef.head?_params_fragment _
      rw [ih hss (by rw [hstage]; nofun), htable, table?, hnone, List.findSome?_cons]
      rfl
    · have hsame := tableClause?_step hs hkind
      have hnone : s.table? = none := by cases s <;> first | rfl | exact absurd rfl hkind
      have hprojected : q'.stage = .projected → q'.tableClause? = none := by
        intro hp
        rw [hsame]
        exact hq (Stage.projected_of_next? (by rw [hnext, ← hstage, hp]))
      rw [ih hss hprojected, List.findSome?_cons, hnone, table?, table?, hsame]

/-- The table of a statement is the one that its opening call names, or else the one that its first
source does. -/
theorem Builder.table?_build {b : Builder} {start : Start} {steps : List Step} {q : Query}
    (h : b.build start steps = .ok q) :
    q.table? = (start.table?.or (steps.findSome? Step.table?)).map .text := by
  obtain ⟨q₀, hstart, hsteps⟩ := Builder.build_eq_ok_iff.1 h
  obtain ⟨htable, hnone⟩ := Builder.table?_start hstart
  rw [Query.table?_steps hsteps hnone, htable]
  cases start.table? <;> rfl

/-! ## The table of an operation -/

/-- A text is its own first word if it has no space. -/
theorem TableRef.firstWord_eq_self_iff {cs : List Char} : firstWord cs = cs ↔ ' ' ∉ cs := by
  rw [firstWord, List.takeWhile_eq_self_iff]
  constructor
  · intro h hm
    exact absurd (h ' ' hm) (by decide)
  · intro h c hc
    rw [bne_iff_ne]
    rintro rfl
    exact h hc

namespace Operation

/-- Whether an operation reads rows. -/
def isRead : Operation → Bool
  | .select _ | .count _ _ | .findOne _ _ _ | .findAll _ _ _ _ _ => true
  | _ => false

/-- The name by which an operation addresses its table. -/
def tableName (t : Table) (op : Operation) : String :=
  if op.isRead then String.ofList (TableRef.firstWord t.config.name.toList) else t.config.name

/-- A program of a table names it where it opens the statement, or as its source. -/
theorem table?_program {t : Table} {op : Operation} {p : Program} (h : op.program t = .ok p) :
    p.start.table?.or (p.steps.findSome? Step.table?) = some (op.tableName t) := by
  cases op with
  | select | count => cases h; rfl
  | findOne fields condition order =>
    simp only [program, bind_eq_ok_iff, pure_eq_ok_iff] at h
    obtain ⟨tree, -, rfl⟩ := h
    rfl
  | findAll fields condition order limit offset =>
    cases condition with
    | none =>
      cases h
      rfl
    | some condition =>
      simp only [program, bind_eq_ok_iff, pure_eq_ok_iff] at h
      obtain ⟨tree, -, rfl⟩ := h
      rfl
  | updateOne | updateAll | patchSingleField | softDeleteOne | softDelete =>
    obtain ⟨condition, tree, values, options, -, -, -, rfl⟩ := program_of_isUpdate rfl h
    rfl
  | insertRecord rows options =>
    simp only [program, insertProgram, bind_eq_ok_iff] at h
    obtain ⟨rows, -, h⟩ := h
    split at h
    · cases h
    · cases h
      rfl
  | removeOne | remove =>
    obtain ⟨condition, tree, -, -, rfl⟩ := program_of_isRemoval rfl h
    rfl

theorem table?_run {t : Table} {op : Operation} {q : Query} (h : op.run t = .ok q) :
    q.table? = some (.text (op.tableName t)) := by
  obtain ⟨p, hp, hbuild⟩ := run_eq_ok_iff.1 h
  rw [Builder.table?_build hbuild, table?_program hp]
  rfl

theorem tableName_eq_iff {t : Table} {op op' : Operation} :
    op.tableName t = op'.tableName t ↔
      op.isRead = op'.isRead ∨ ' ' ∉ t.config.name.toList := by
  have hword : String.ofList (TableRef.firstWord t.config.name.toList) = t.config.name ↔
      ' ' ∉ t.config.name.toList := by
    rw [← TableRef.firstWord_eq_self_iff, ← String.toList_inj, String.toList_ofList]
  rw [tableName, tableName]
  cases op.isRead <;> cases op'.isRead <;> simp [hword, eq_comm (a := t.config.name)]

/-- Every operation that succeeds binds the name of its table in a part of its statement: a read
binds the first word of the name in the description, and any other operation the name itself. So two
operations address the same table exactly if both are reads, or neither is, or the name has no
space. -/
theorem table?_of_run {t : Table} {op : Operation} {q : Query} (h : op.run t = .ok q) :
    q.table? = some (.text (op.tableName t)) ∧
    (∃ f : Fragment, f.Within q.statement ∧ f.params.head? = q.table?) ∧
    ∀ (op' : Operation) (q' : Query), op'.run t = .ok q' →
      (q.table? = q'.table? ↔ op.isRead = op'.isRead ∨ ' ' ∉ t.config.name.toList) := by
  have htable := table?_run h
  refine ⟨htable, ?_, fun op' q' h' => ?_⟩
  · rw [htable]
    exact Query.exists_within_of_table? htable
  · rw [htable, table?_run h', ← tableName_eq_iff]
    simp

/-- A table whose name has a space. -/
def spaced : Table := ⟨⟨"user data", "id", ["id", "a"], {}⟩, {}, rfl⟩

/-- Reading from such a table and removing from it are about different tables. -/
theorem table?_of_spaced :
    ∃ q q', (Operation.select (.ready [])).run spaced = .ok q ∧
      (Operation.remove (.document (.object [("id", .number (.int 1))]))).run spaced = .ok q' ∧
      q.statement = ⟨"SELECT * FROM ?? AS ??", [.text "user", .text "data"]⟩ ∧
      q'.statement = ⟨"DELETE FROM ?? WHERE id = ?", [.text "user data", .int 1]⟩ ∧
      q.table? ≠ q'.table? :=
  ⟨_, _, rfl, rfl, rfl, rfl, by decide⟩

theorem table?_of_users :
    ∃ q q', (Operation.select (.ready [])).run .users = .ok q ∧
      (Operation.remove (.document (.object [("id", .number (.int 1))]))).run .users = .ok q' ∧
      q.table? = some (.text "users") ∧ q.table? = q'.table? ∧
      ∃ f : Fragment, f.Within q.statement ∧ f.params.head? = q.table? := by
  obtain ⟨q, hq⟩ : ∃ q, (Operation.select (.ready [])).run .users = .ok q := ⟨_, rfl⟩
  obtain ⟨q', hq'⟩ : ∃ q, (Operation.remove (.document (.object [("id", .number (.int 1))]))).run
      .users = .ok q := ⟨_, rfl⟩
  obtain ⟨htable, hwithin, hsame⟩ := table?_of_run hq
  exact ⟨q, q', hq, hq', htable, (hsame _ q' hq').2 (.inr (by decide)), hwithin⟩

end Operation

end Sqlwright
