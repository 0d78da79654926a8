import Sqlwright.Proofs.Appending
import Sqlwright.Proofs.Change
import Sqlwright.Registry

/-!
# Execution through layers of logging

However many layers of logging stand around an executor, running a query reaches it once, with the
statement of the query, and gives back its answer. Around that call each layer reports the statement
once, and its failure if it fails; what it reports as the kind of the statement is the kind of the
call that opened it (`execute_transparent`).
-/

namespace Sqlwright

/-! ## Layers -/

namespace Executor

/-- The layers of logging, the outermost first. -/
def layers : Executor → List LogLayer
  | .base _ _ => []
  | .logged layer inner => layer :: inner.layers

/-- The name of the caller's executor inside all layers. -/
def name : Executor → String
  | .base name _ => name
  | .logged _ inner => inner.name

/-- What the caller's executor inside all layers answers. -/
def respond : Executor → Statement → Except Fault Output
  | .base _ respond => respond
  | .logged _ inner => inner.respond

/-- An executor is a caller's own one inside its layers. -/
theorem foldr_layers (e : Executor) : e.layers.foldr .logged (.base e.name e.respond) = e := by
  induction e with
  | base name respond => rfl
  | logged layer inner ih => rw [layers, List.foldr_cons, name, respond, ih]

/-- What the layers report after an answer, the innermost first. -/
def warnings (e : Executor) : Except Fault Output → List Event
  | .ok _ => []
  | .error f => e.layers.reverse.map fun layer => layer.failure f

theorem warnings_base (name : String) (respond : Statement → Except Fault Output)
    (result : Except Fault Output) : (base name respond).warnings result = [] := by
  cases result <;> rfl

theorem warnings_logged (layer : LogLayer) (inner : Executor) (result : Except Fault Output) :
    (logged layer inner).warnings result = inner.warnings result ++ layer.after result := by
  cases result with
  | ok output => rfl
  | error f => simp [warnings, layers, LogLayer.after]

/-- A run is one call of the caller's executor, with the reports of the layers around it. -/
theorem run_eq (e : Executor) (s : Statement) :
    e.run s = ⟨e.respond s, e.layers.map (fun layer => .event (layer.before s))
      ++ .call ⟨e.name, s⟩ :: (e.warnings (e.respond s)).map .event⟩ := by
  induction e with
  | base name respond =>
    rw [run, warnings_base]
    rfl
  | logged layer inner ih =>
    rw [run, ih, warnings_logged]
    simp [layers, name, respond]

theorem calls_run (e : Executor) (s : Statement) : (e.run s).calls = [⟨e.name, s⟩] := by
  have hbefore : (e.layers.map fun layer => Effect.event (layer.before s)).filterMap Effect.call?
      = [] := by simp [Effect.call?]
  have hafter : ((e.warnings (e.respond s)).map Effect.event).filterMap Effect.call? = [] := by
    simp [Effect.call?]
  rw [run_eq, Run.calls, List.filterMap_append, List.filterMap_cons, hbefore, hafter]
  rfl

end Executor

/-- A connection answers as its executor does, and a verbose one is a layer more. -/
theorem Connection.executor_ofExecutor (name : String) (e : Executor) (verbose : Bool) :
    (ofExecutor name e verbose).executor.layers
      = (if verbose then [{ connection := name }] else []) ++ e.layers ∧
    (ofExecutor name e verbose).executor.name = e.name ∧
    (ofExecutor name e verbose).executor.respond = e.respond := by
  cases verbose with
  | false => exact ⟨rfl, rfl, rfl⟩
  | true => exact ⟨rfl, rfl, rfl⟩

/-! ## The kind of a statement -/

/-- The kind of statement that a call opens. -/
def Start.statementKind : Start → StatementKind
  | .select _ | .count _ _ | .aggregate _ _ _ => .select
  | .update _ | .updateWith _ _ _ => .update
  | .insert _ _ _ => .insert
  | .deleteFrom _ => .delete

theorem Start.statementKind_ne_other (s : Start) : s.statementKind ≠ .other := by
  cases s <;> simp [statementKind]

/-- What the log says a call opens. -/
def Start.queryType : Start → String
  | .select _ | .count _ _ | .aggregate _ _ _ => "Select"
  | .update _ | .updateWith _ _ _ => "Update"
  | .insert _ _ _ => "Insert"
  | .deleteFrom _ => "Delete"

theorem Start.label_statementKind (s : Start) : s.statementKind.label = s.queryType := by
  cases s <;> rfl

namespace StatementKind

/-- The word that a statement of a kind begins with. -/
def keyword : StatementKind → String
  | .select => "SELECT"
  | .insert => "INSERT"
  | .update => "UPDATE"
  | .delete => "DELETE"
  | .other => ""

theorem leadingWord_append {word : List Char} (hne : word ≠ [])
    (h : word.all fun c => !Text.isBlank c && c != '(') (rest : List Char) :
    leadingWord (word ++ ' ' :: rest) = word := by
  have hword := List.all_eq_true.1 h
  obtain ⟨c, cs, rfl⟩ := List.exists_cons_of_ne_nil hne
  have hblank : ¬Text.isBlank c = true := by
    have hc := hword c (List.mem_cons_self ..)
    simp only [Bool.and_eq_true, Bool.not_eq_true'] at hc
    simp [hc.1]
  have htrim : Text.trimFront (c :: cs ++ ' ' :: rest) = c :: cs ++ ' ' :: rest := by
    rw [List.cons_append, Text.trimFront, List.dropWhile_cons_of_neg hblank]
  rw [leadingWord, htrim, List.takeWhile_append_of_pos hword,
    List.takeWhile_cons_of_neg (by decide), List.append_nil]

/-- The kind of a statement is recovered from the word that it begins with. -/
theorem ofSql_keyword_append (kind : StatementKind) (hkind : kind ≠ .other) (rest : String) :
    ofSql (kind.keyword ++ " " ++ rest) = kind := by
  have hword : leadingWord (kind.keyword ++ " " ++ rest).toList = kind.keyword.toList := by
    rw [String.toList_append, String.toList_append, List.append_assoc]
    exact leadingWord_append (by cases kind <;> first | decide | exact absurd rfl hkind)
      (by cases kind <;> rfl) rest.toList
  rw [ofSql, hword]
  cases kind with
  | other => exact absurd rfl hkind
  | _ => rfl

end StatementKind

/-- A fragment that begins with the word of a kind. -/
def Fragment.Opens (f : Fragment) (kind : StatementKind) : Prop :=
  ∃ rest, f.sql = kind.keyword ++ " " ++ rest

theorem Fragment.Opens.withLabel {f : Fragment} {kind : StatementKind} (h : f.Opens kind)
    (label : Option String) : (f.withLabel label).Opens kind := by
  obtain ⟨rest, hrest⟩ := h
  rw [Fragment.withLabel]
  split
  · exact ⟨rest ++ " AS ??", by rw [hrest, String.append_assoc]⟩
  · exact ⟨rest, hrest⟩

theorem SelectList.opens (fields : SelectList) : fields.fragment.Opens .select := by
  rw [SelectList.fragment]
  split
  · exact ⟨"*", rfl⟩
  · exact ⟨_, String.append_empty⟩

theorem opens_countFragment (field : String) : (countFragment field).Opens .select := by
  rw [countFragment]
  split
  · exact ⟨"COUNT(*)", rfl⟩
  · exact ⟨"COUNT(??)", rfl⟩

theorem Insertion.opens {table : String} {options : InsertOptions} {rows : List Row}
    {f : Fragment} (h : Insertion.fragment table options rows = .ok f) : f.Opens .insert := by
  obtain ⟨first, others, values, -, -, rfl⟩ := Insertion.exists_of_fragment h
  simp only [Fragment.Opens, String.append_assoc]
  exact ⟨_, rfl⟩

/-- An opening call begins a statement with the word of its kind. -/
theorem Start.exists_opens {s : Start} {clauses : List Clause} (h : s.clauses = .ok clauses) :
    ∃ f fs, s.fragments = f :: fs ∧ f.Opens s.statementKind := by
  rw [Start.fragments, h]
  cases s with
  | select fields =>
    simp only [Start.clauses, bind_eq_ok_iff, pure_eq_ok_iff] at h
    obtain ⟨list, -, rfl⟩ := h
    exact ⟨_, [], rfl, list.opens⟩
  | count field label =>
    cases h
    exact ⟨_, [], rfl, (opens_countFragment field).withLabel label⟩
  | aggregate function field label =>
    cases h
    have hhead : Fragment.Opens ⟨"SELECT " ++ function.word ++ "(??)", [.text field]⟩ .select :=
      ⟨function.word ++ "(??)", String.append_assoc⟩
    exact ⟨_, [], rfl, hhead.withLabel label⟩
  | update table =>
    simp only [Start.clauses, bind_eq_ok_iff, pure_eq_ok_iff] at h
    obtain ⟨-, -, rfl⟩ := h
    exact ⟨_, [], rfl, "??", rfl⟩
  | updateWith table values options =>
    simp only [Start.clauses, bind_eq_ok_iff, pure_eq_ok_iff] at h
    obtain ⟨-, -, read, -, prepared, -, set, hset, rfl⟩ := h
    exact ⟨_, [set], rfl, "??", rfl⟩
  | insert table rows options =>
    simp only [Start.clauses, bind_eq_ok_iff, pure_eq_ok_iff] at h
    obtain ⟨-, -, read, -, f, hf, rfl⟩ := h
    exact ⟨_, [], rfl, Insertion.opens hf⟩
  | deleteFrom table =>
    simp only [Start.clauses, bind_eq_ok_iff, pure_eq_ok_iff] at h
    obtain ⟨-, -, rfl⟩ := h
    exact ⟨_, [], rfl, "FROM ??", rfl⟩

/-- The kind of a statement is that of the call that opened it. -/
theorem Builder.ofSql_statement {b : Builder} {start : Start} {steps : List Step} {q : Query}
    (h : b.build start steps = .ok q) :
    StatementKind.ofSql q.statement.sql = start.statementKind := by
  have hstatement := Program.statement_run (p := ⟨start, steps⟩) h
  obtain ⟨q₀, hstart, -⟩ := Builder.build_eq_ok_iff.1 h
  obtain ⟨clauses, hclauses, -⟩ := Builder.start_eq_ok_iff.1 hstart
  obtain ⟨f, fs, hfragments, rest, hf⟩ := Start.exists_opens hclauses
  obtain ⟨more, hmore⟩ : ∃ more, q.statement.sql = f.sql ++ more := by
    rw [hstatement, Program.fragments, hfragments, Fragment.sql_join, List.cons_append,
      List.map_cons]
    cases (fs ++ steps.flatMap Step.fragments).map Fragment.sql with
    | nil => exact ⟨"", by simp⟩
    | cons t ts => exact ⟨_, by rw [String.intercalate_cons_cons, String.append_assoc]⟩
  rw [hmore, hf, String.append_assoc]
  exact StatementKind.ofSql_keyword_append _ start.statementKind_ne_other _

/-! ## The executor of a query -/

/-- The executor that a call changes to. -/
def Step.executor? : Step → Option Executor
  | .rebind e => some e
  | _ => none

/-- The executor that some calls change to at last. -/
def lastExecutor? (steps : List Step) : Option Executor := (steps.filterMap Step.executor?).getLast?

theorem lastExecutor?_cons (s : Step) (steps : List Step) :
    lastExecutor? (s :: steps) = (lastExecutor? steps).or s.executor? := by
  rw [lastExecutor?, lastExecutor?, List.filterMap_cons]
  cases s.executor? with
  | none => simp
  | some e =>
    rw [List.getLast?_cons]
    cases (steps.filterMap Step.executor?).getLast? <;> rfl

theorem Query.executor_step {q q' : Query} {s : Step} (h : q.step s = .ok q') :
    q'.executor = s.executor?.or q.executor := by
  obtain ⟨stage, clause, -, -, rfl⟩ := step_eq_ok_iff.1 h
  cases s <;> rfl

/-- The last change of the executor decides. -/
theorem Query.executor_steps {q r : Query} {steps : List Step} (h : q.steps steps = .ok r) :
    r.executor = (lastExecutor? steps).or q.executor := by
  induction steps generalizing q with
  | nil => cases h; rfl
  | cons s steps ih =>
    obtain ⟨q', hs, hsteps⟩ := steps_cons_eq_ok_iff.1 h
    rw [ih hsteps, executor_step hs, lastExecutor?_cons, Option.or_assoc]

theorem Builder.executor_build {b : Builder} {start : Start} {steps : List Step} {q : Query}
    (h : b.build start steps = .ok q) : q.executor = (lastExecutor? steps).or b.executor := by
  obtain ⟨q₀, hstart, hsteps⟩ := Builder.build_eq_ok_iff.1 h
  obtain ⟨clauses, -, rfl⟩ := Builder.start_eq_ok_iff.1 hstart
  exact Query.executor_steps hsteps

namespace Operation

/-- What the log says an operation runs. -/
def queryType : Operation → String
  | .select _ | .count _ _ | .findOne _ _ _ | .findAll _ _ _ _ _ => "Select"
  | .updateOne _ _ _ | .updateAll _ _ _ | .patchSingleField _ _ _ _ | .softDeleteOne _ _ _
  | .softDelete _ _ _ => "Update"
  | .insertRecord _ _ => "Insert"
  | .removeOne _ _ | .remove _ => "Delete"

/-- A program of a table opens a statement of the kind of its operation, and changes no executor. -/
theorem program_settles {t : Table} {op : Operation} {p : Program} (h : op.program t = .ok p) :
    p.start.queryType = op.queryType ∧ lastExecutor? p.steps = none := by
  cases op with
  | select | count => cases h; exact ⟨rfl, rfl⟩
  | findOne fields condition order =>
    simp only [program, bind_eq_ok_iff, pure_eq_ok_iff] at h
    obtain ⟨tree, -, rfl⟩ := h
    exact ⟨rfl, rfl⟩
  | findAll fields condition order limit offset =>
    cases condition with
    | none => cases h; exact ⟨rfl, rfl⟩
    | some condition =>
      simp only [program, bind_eq_ok_iff, pure_eq_ok_iff] at h
      obtain ⟨tree, -, rfl⟩ := h
      exact ⟨rfl, rfl⟩
  | updateOne | softDeleteOne | updateAll | patchSingleField | softDelete =>
    obtain ⟨condition, tree, values, options, -, -, -, rfl⟩ := program_of_isUpdate rfl h
    exact ⟨rfl, rfl⟩
  | insertRecord rows options =>
    simp only [program, insertProgram, bind_eq_ok_iff] at h
    obtain ⟨rows, -, h⟩ := h
    split at h
    · cases h
    · cases h
      exact ⟨rfl, rfl⟩
  | removeOne | remove =>
    obtain ⟨condition, tree, -, -, rfl⟩ := program_of_isRemoval rfl h
    exact ⟨rfl, rfl⟩

end Operation

/-! ## Execution -/

/-- Running a query shows nothing of the layers around its executor but their reports. `queryType`
is what these call the statement. -/
structure Query.Transparent (q : Query) (queryType : String) (executor : Option Executor) :
    Prop where
  /-- Without an executor nothing is reached and nothing is reported. -/
  missing : executor = none → ∃ f, q.execute = ⟨.error f, []⟩ ∧ f.kind = .configuration
  answered : ∀ e, executor = some e → q.execute.result = e.respond q.statement
  called : ∀ e, executor = some e → q.execute.calls = [⟨e.name, q.statement⟩]
  /-- Each layer reports the statement before the call, the outermost first, and warns of a call
  that failed after it, the innermost first. -/
  reported : ∀ e, executor = some e → q.execute.effects
    = e.layers.map (fun layer => .event ⟨layer.level, .statements,
        [("connection", layer.connection), ("query_type", queryType),
         ("param_count", toString q.statement.params.length),
         ("sql", layer.shown q.statement)]⟩)
      ++ .call ⟨e.name, q.statement⟩
      :: match q.execute.result with
        | .ok _ => []
        | .error f => e.layers.reverse.map fun layer => .event ⟨.warn, .statements,
            [("connection", layer.connection), ("error", f.message),
             ("message", "statement failed")]⟩

theorem Query.transparent {q : Query} {start : Start} {executor : Option Executor}
    (he : q.executor = executor)
    (hkind : StatementKind.ofSql q.statement.sql = start.statementKind) :
    q.Transparent start.queryType executor := by
  subst he
  cases h : q.executor with
  | none =>
    refine ⟨fun _ => ⟨.executorMissing, ?_, rfl⟩, nofun, nofun, nofun⟩
    rw [execute, h]
  | some e =>
    have hrun : q.execute = e.run q.statement := by rw [execute, h]
    have hresult : q.execute.result = e.respond q.statement := by rw [hrun, e.run_eq]
    refine ⟨nofun, ?_, ?_, ?_⟩ <;> rintro _ ⟨⟩
    · exact hresult
    · rw [hrun, e.calls_run]
    · rw [hresult, hrun, e.run_eq, ← start.label_statementKind, ← hkind]
      cases e.respond q.statement with
      | ok output => rfl
      | error f =>
        rw [Executor.warnings, List.map_map]
        rfl

/-- Execution is transparent through any layers of logging: of what a program of calls reaches, and
of whatever follows an operation on a table. The last change of the executor decides which it is.
Every executor is a caller's own one inside its layers, and a verbose connection is one layer. All
that layers report goes to one target. -/
theorem execute_transparent :
    (∀ (b : Builder) (start : Start) (steps : List Step) (q : Query),
      b.build start steps = .ok q →
      q.Transparent start.queryType ((lastExecutor? steps).or b.executor)) ∧
    (∀ (t : Table) (op : Operation) (q₀ q : Query) (steps : List Step),
      op.run t = .ok q₀ → q₀.steps steps = .ok q →
      q.Transparent op.queryType ((lastExecutor? steps).or t.builder.executor)) ∧
    (∀ e : Executor, e.layers.foldr .logged (.base e.name e.respond) = e ∧
      ∀ (name : String) (verbose : Bool),
        let c := (Connection.ofExecutor name e verbose).executor
        c.layers = (if verbose then [⟨name, .debug, some 200⟩] else []) ++ e.layers ∧
        c.name = e.name ∧ c.respond = e.respond) ∧
    LogTarget.statements.label = "myorm.sql" := by
  refine ⟨fun b start steps q h => ?_, fun t op q₀ q steps hop hsteps => ?_,
    fun e => ⟨e.foldr_layers, fun name => Connection.executor_ofExecutor name e⟩, rfl⟩
  · exact Query.transparent (Builder.executor_build h) (Builder.ofSql_statement h)
  · obtain ⟨p, hp, hbuild⟩ := Operation.run_eq_ok_iff.1 hop
    obtain ⟨hkind, hlast⟩ := Operation.program_settles hp
    have hwhole := Builder.build_append hbuild hsteps
    rw [← hkind]
    refine Query.transparent ?_ (Builder.ofSql_statement hwhole)
    rw [Query.executor_steps hsteps, Builder.executor_build hbuild, hlast]
    rfl

/-- An executor that refuses every statement, with a layer of logging around it. -/
def Executor.refusing : Executor :=
  .logged { connection := "audit", level := .info, limit := none }
    (.base "store" fun _ => .error (.reported .execution "gone"))

/-- A count that changes to a verbose connection to such an executor reaches it once, between a
report and a warning of either layer, and its answer comes back. -/
theorem execute_of_refusing :
    ∃ q, (Builder.mk none).build (.count "id" none)
        [.source "users" none, .rebind (Connection.ofExecutor "main" .refusing).executor] = .ok q ∧
      q.execute.calls = [⟨"store", ⟨"SELECT COUNT(??) FROM ??", [.text "id", .text "users"]⟩⟩] ∧
      q.execute.result = .error (.reported .execution "gone") ∧
      q.execute.effects =
        [.event ⟨.debug, .statements,
          [("connection", "main"), ("query_type", "Select"), ("param_count", "2"),
           ("sql", "SELECT COUNT(\x60id\x60) FROM \x60users\x60")]⟩,
         .event ⟨.info, .statements,
          [("connection", "audit"), ("query_type", "Select"), ("param_count", "2"),
           ("sql", "SELECT COUNT(\x60id\x60) FROM \x60users\x60")]⟩,
         .call ⟨"store", ⟨"SELECT COUNT(??) FROM ??", [.text "id", .text "users"]⟩⟩,
         .event ⟨.warn, .statements,
          [("connection", "audit"), ("error", "Execution error: gone"),
           ("message", "statement failed")]⟩,
         .event ⟨.warn, .statements,
          [("connection", "main"), ("error", "Execution error: gone"),
           ("message", "statement failed")]⟩] ∧
      ∃ q', (Operation.remove
          (.document (.object [("id", .number (.int 1))]))).run .users = .ok q' ∧
        ∃ f, q'.execute = ⟨.error f, []⟩ ∧ f.kind = .configuration := by
  obtain ⟨q, hq, hstatement⟩ : ∃ q, (Builder.mk none).build (.count "id" none)
      [.source "users" none, .rebind (Connection.ofExecutor "main" .refusing).executor] = .ok q ∧
      q.statement = ⟨"SELECT COUNT(??) FROM ??", [.text "id", .text "users"]⟩ := ⟨_, rfl, rfl⟩
  obtain ⟨q', hq'⟩ : ∃ q', (Operation.remove
      (.document (.object [("id", .number (.int 1))]))).run .users = .ok q' := ⟨_, rfl⟩
  obtain ⟨hbuild, hoperation, -⟩ := execute_transparent
  have htransparent := hbuild _ _ _ q hq
  have hresult := htransparent.answered _ rfl
  refine ⟨q, hq, ?_, hresult, ?_, q', hq', (hoperation .users _ q' q' [] hq' rfl).missing rfl⟩
  · rw [htransparent.called _ rfl, hstatement]
    rfl
  · rw [htransparent.reported _ rfl, hresult, hstatement]
    decide +kernel

end Sqlwright
