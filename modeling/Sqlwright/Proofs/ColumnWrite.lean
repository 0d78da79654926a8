import Sqlwright.Proofs.Change

/-!
# Writing one column

Patching a column and flagging rows as deleted are updates of one column. What the call gives ends
up in that column, unless it is the time column of an update that stamps it: that column is written
on every such update. The primary key cannot be written at all, and a call that has nothing else to
write is refused (`Operation.assigns_of_run`).
-/

namespace Sqlwright

open Condition

/-- The write of one column, and the options of its update. -/
structure ColumnWrite where
  column : String
  value : Value
  options : UpdateOptions

namespace ColumnWrite

variable (w : ColumnWrite)

/-- Whether the update stamps a column. -/
def Stamps (column : String) : Prop :=
  w.options.timestamps = true ∧ column = w.options.utimeField

instance (column : String) : Decidable (w.Stamps column) := inferInstanceAs (Decidable (_ ∧ _))

/-- What is assigned to the column: the stamp if the update stamps it, and else its value. -/
def assigned : Value :=
  if w.Stamps w.column then w.options.utimeStamp.reading 0 else w.value

/-- What is assigned beside the column: the time column, if the update stamps another than the
column and the primary key. -/
def beside (key : String) : List (String × Assignment) :=
  if w.options.timestamps ∧ w.options.utimeField ≠ w.column ∧ w.options.utimeField ≠ key then
    [(w.options.utimeField, .set (w.options.utimeStamp.reading 0))]
  else []

/-- The payload of the write. -/
def payload : List (String × Assignment) := [(w.column, .set w.value)]

/-- What is planned of the payload in a table with a primary key, whatever key the options name. -/
def planned (key : String) : List (String × Assignment) :=
  { w.options with primaryKey := some key : UpdateOptions }.plan w.payload

variable {w} {key : String}

/-- The payload with the time column written. -/
theorem stamped_payload (w : ColumnWrite) (a : Assignment) :
    overwrite w.options.utimeField a w.payload
      = if w.options.utimeField = w.column then [(w.column, a)]
        else w.payload ++ [(w.options.utimeField, a)] := by
  by_cases hu : w.options.utimeField = w.column
  · simp [overwrite, payload, hu]
  · simp [overwrite, payload, hu]

/-- The SET list of a write: the column, and perhaps the time column behind it. -/
theorem planned_of_ne (h : w.column ≠ key) :
    w.planned key = (w.column, .set w.assigned) :: w.beside key := by
  rw [planned, UpdateOptions.plan, stamped_payload, assigned, beside]
  by_cases ht : w.options.timestamps = true
  · by_cases hu : w.options.utimeField = w.column
    · simp [Stamps, ht, hu, h.symm]
    · by_cases hk : w.options.utimeField = key
      · simp [Stamps, payload, ht, hk, h, h.symm]
      · simp [Stamps, payload, ht, hu, hk, h.symm, Ne.symm hk, Ne.symm hu]
  · simp [Stamps, payload, ht, h.symm]

/-- Nothing is left of a write of the primary key. -/
theorem planned_of_key (h : w.column = key)
    (hclear : w.options.timestamps = true → w.options.utimeField = key) :
    w.planned key = [] := by
  rw [planned, UpdateOptions.plan, stamped_payload]
  by_cases ht : w.options.timestamps = true
  · simp [ht, hclear ht, h]
  · simp [payload, ht, h]

end ColumnWrite

namespace Operation

/-- The write of an operation that writes one column. -/
def columnWrite? (t : Table) : Operation → Option ColumnWrite
  | .patchSingleField field value _ options => some ⟨field, value, options⟩
  | .softDeleteOne _ value options | .softDelete _ value options =>
    some ⟨t.deleteField options, value, options.update⟩
  | _ => none

variable {t : Table} {op : Operation} {w : ColumnWrite}

/-- The program of such an operation is that of an update, unless the column is blank. -/
theorem program_of_columnWrite? (hw : op.columnWrite? t = some w) :
    ∃ operation condition, op.condition? = some condition ∧
      ((∃ r, Text.isBlankText w.column = true ∧ op.program t = .error r) ∨
        op.program t = updateProgram t operation (Table.single w.column w.value) condition
          w.options op.tail) := by
  cases op with
  | patchSingleField field value condition options =>
    cases hw
    refine ⟨"PatchSingleField", condition, rfl, ?_⟩
    rw [program]
    cases hblank : Text.isBlankText field with
    | true => exact .inl ⟨_, rfl, rfl⟩
    | false => exact .inr rfl
  | softDeleteOne condition value options | softDelete condition value options =>
    cases hw
    exact ⟨_, condition, rfl, .inr rfl⟩
  | _ => cases hw

/-- Behind the filter of a write of one column comes at most a limit. -/
theorem exists_tail_of_columnWrite? (hw : op.columnWrite? t = some w) {q : Query}
    (h : q.stage = .mutationFiltered) : ∃ r, q.steps op.tail = .ok r := by
  cases op with
  | patchSingleField | softDelete => exact ⟨q, rfl⟩
  | softDeleteOne =>
    obtain ⟨r, hr, -⟩ := Query.exists_step (q := q) (s := .limit (some 1)) .mutationLimited
      (by rw [h]; rfl) rfl
    exact ⟨r, Query.steps_cons_eq_ok_iff.2 ⟨r, hr, rfl⟩⟩
  | _ => cases hw

/-- A write of one column that succeeds is filtered by its condition and sets what is planned. -/
theorem statement_of_columnWrite? (hw : op.columnWrite? t = some w) {q : Query}
    (h : op.run t = .ok q) :
    w.planned t.config.primaryKey ≠ [] ∧ ∃ condition tree f, op.condition? = some condition ∧
      condition.resolve readTree = .ok tree ∧ predicate .and tree = .ok f ∧ f.sql ≠ "" ∧
      q.statement = Fragment.join " " (⟨"UPDATE ??", [.text t.config.name]⟩
        :: setList (w.planned t.config.primaryKey)
        :: f.enclose "WHERE " "" :: op.tail.flatMap Step.fragments) := by
  obtain ⟨p, hp, hbuild⟩ := run_eq_ok_iff.1 h
  obtain ⟨operation, condition, hcondition, hprogram⟩ := program_of_columnWrite? hw
  rcases hprogram with ⟨r, -, hrefused⟩ | hprogram
  · rw [hrefused] at hp
    cases hp
  · rw [hprogram] at hp
    obtain ⟨tree, values, ⟨htree, -⟩, ⟨⟨⟩, -⟩, rfl⟩ := updateProgram_eq_ok_iff.1 hp
    obtain ⟨clauses, f, hclauses, hf, hne, hstatement⟩ := Builder.statement_of_guarded rfl hbuild
    rw [Start.fragments_of_plan rfl hclauses] at hstatement
    obtain ⟨-, _, ⟨⟩, -, hplanned, -⟩ := Start.clauses_updateWith_eq_ok_iff.1 hclauses
    exact ⟨hplanned, condition, tree, f, hcondition, htree, hf, hne, hstatement⟩

/-- A write of a column other than the primary key succeeds if its condition says something. -/
theorem exists_run_of_columnWrite? (hw : op.columnWrite? t = some w) {condition : Input Tree}
    {tree : Tree} {f : Fragment} (hop : op.condition? = some condition)
    (hc : condition.resolve readTree = .ok tree) (hf : predicate .and tree = .ok f)
    (hne : f.sql ≠ "") (hblank : Text.isBlankText w.column = false)
    (hkey : w.column ≠ t.config.primaryKey) : ∃ q, op.run t = .ok q := by
  have hr : nodeRenders tree = true := by
    have hrender := isBlank_predicate hf
    rw [Fragment.isBlank, beq_eq_false_iff_ne.2 hne] at hrender
    simpa using hrender
  have htree : tree ≠ [] := by
    rintro rfl
    cases hr
  obtain ⟨operation, condition', hop', hprogram⟩ := program_of_columnWrite? hw
  obtain rfl : condition' = condition := Option.some.inj (hop'.symm.trans hop)
  have hp := (hprogram.resolve_left fun ⟨_, hcolumn, _⟩ => by simp [hblank] at hcolumn).trans
    (updateProgram_eq_ok_iff.2 ⟨tree, _, ⟨hc, htree⟩, ⟨rfl, rfl⟩, rfl⟩)
  -- the column itself is left for the SET list
  have hplanned : w.planned t.config.primaryKey ≠ [] := by
    rw [ColumnWrite.planned_of_ne hkey]
    exact List.cons_ne_nil _ _
  obtain ⟨q₀, hstart, hs₀⟩ : ∃ q₀, t.builder.start (.updateWith t.config.name
      (Table.single w.column w.value)
      { w.options with primaryKey := some t.config.primaryKey }) = .ok q₀ ∧
      q₀.stage = .assigned :=
    ⟨_, Builder.start_updateWith_eq_ok_iff.2
      ⟨t.isBlankText_name, _, rfl, List.cons_ne_nil _ _, hplanned, rfl⟩, rfl⟩
  have hclause : (Table.filterStep tree).clause? q₀.stage.isGuarded
      = .ok (some (.filter, f.enclose "WHERE " "")) := by
    rw [Table.filterStep, Step.clause?_filter rfl, filterClause_eq hf, if_pos hr]
  obtain ⟨q₁, hfilter, hs₁⟩ := Query.exists_step .mutationFiltered (by rw [hs₀]; rfl) hclause
  obtain ⟨q, htail⟩ := exists_tail_of_columnWrite? hw hs₁
  exact ⟨q, run_eq_ok_iff.2 ⟨_, hp, Builder.build_eq_ok_iff.2
    ⟨q₀, hstart, Query.steps_cons_eq_ok_iff.2 ⟨q₁, hfilter, htail⟩⟩⟩⟩

/-- Whatever an operation that writes one column gives for it is what the column is set to, or the
stamp if the update stamps that column, with at most a stamped time column beside it. The primary
key is refused, and any other column that is not blank is written if the condition says something.
Of a call that gives the primary key a value and stamps another column nothing is said. -/
theorem assigns_of_run (hw : op.columnWrite? t = some w)
    (hclear : w.column = t.config.primaryKey → w.options.timestamps = true →
      w.options.utimeField = t.config.primaryKey) :
    (∀ q, op.run t = .ok q → w.column ≠ t.config.primaryKey ∧
      ∃ condition tree f, op.condition? = some condition ∧
        condition.resolve readTree = .ok tree ∧ predicate .and tree = .ok f ∧ f.sql ≠ "" ∧
        q.statement = Fragment.join " " (⟨"UPDATE ??", [.text t.config.name]⟩
          :: setList ((w.column, .set w.assigned) :: w.beside t.config.primaryKey)
          :: f.enclose "WHERE " "" :: op.tail.flatMap Step.fragments)) ∧
    (w.column = t.config.primaryKey → ∃ r, op.run t = .error r) ∧
    (∀ condition tree f, op.condition? = some condition → condition.resolve readTree = .ok tree →
      predicate .and tree = .ok f → f.sql ≠ "" → Text.isBlankText w.column = false →
      w.column ≠ t.config.primaryKey → ∃ q, op.run t = .ok q) := by
  have hne : ∀ q, op.run t = .ok q → w.column ≠ t.config.primaryKey := by
    intro q hq heq
    obtain ⟨hplanned, -⟩ := statement_of_columnWrite? hw hq
    exact hplanned (ColumnWrite.planned_of_key heq (hclear heq))
  refine ⟨fun q hq => ⟨hne q hq, ?_⟩, fun heq => ?_, fun condition tree f hop hc hf hsql hblank =>
    exists_run_of_columnWrite? hw hop hc hf hsql hblank⟩
  · obtain ⟨-, hstatement⟩ := statement_of_columnWrite? hw hq
    rw [ColumnWrite.planned_of_ne (hne q hq)] at hstatement
    exact hstatement
  · cases hrun : op.run t with
    | error r => exact ⟨r, rfl⟩
    | ok q => exact absurd heq (hne q hrun)

/-- Options that stamp the time column. -/
def stampingOptions : UpdateOptions :=
  { timestamps := true, utimeField := "utime", utimeStamp := .fixed (.int 100) }

/-- A value for the time column itself gives way to the stamp. -/
theorem stamp_replaces_value :
    ∃ q, (patchSingleField "utime" (.int 5) (.document (.object [("id", .number (.int 1))]))
        stampingOptions).run .users = .ok q ∧
      q.statement = ⟨"UPDATE ?? SET ?? = ? WHERE id = ?",
        [.text "users", .text "utime", .int 100, .int 1]⟩ ∧
      .int 5 ∉ q.statement.params :=
  ⟨_, rfl, rfl, by decide⟩

theorem assigns_of_stampingOptions :
    (∃ q, (softDeleteOne (.document (.object [("a", .text "x")])) (.bool true)
        { update := stampingOptions }).run .users = .ok q ∧
      q.statement = Fragment.join " " [⟨"UPDATE ??", [.text "users"]⟩,
        setList [("is_deleted", .set (.bool true)), ("utime", .set (.int 100))],
        ⟨"WHERE a = ?", [.text "x"]⟩, ⟨"LIMIT ?", [.uint 1]⟩]) ∧
    ∃ r, (patchSingleField "id" (.int 5) (.document (.object [("a", .text "x")])) {}).run .users
      = .error r := by
  have hflag : (softDeleteOne (.document (.object [("a", .text "x")])) (.bool true)
      { update := stampingOptions }).columnWrite? .users
      = some ⟨"is_deleted", .bool true, stampingOptions⟩ := rfl
  have hkey : (patchSingleField "id" (.int 5) (.document (.object [("a", .text "x")]))
      {}).columnWrite? .users = some ⟨"id", .int 5, {}⟩ := rfl
  constructor
  · obtain ⟨hstatement, -, hruns⟩ := assigns_of_run hflag (by decide)
    obtain ⟨q, hq⟩ := hruns _ _ _ rfl rfl rfl (by decide) (by decide) (by decide)
    obtain ⟨-, _, _, _, ⟨⟩, ⟨⟩, ⟨⟩, -, hs⟩ := hstatement q hq
    exact ⟨q, hq, hs⟩
  · exact (assigns_of_run hkey (by decide)).2.1 rfl

end Operation

end Sqlwright
