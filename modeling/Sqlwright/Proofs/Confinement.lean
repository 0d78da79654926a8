import Sqlwright.Proofs.Appending
import Sqlwright.Proofs.Balance
import Sqlwright.Proofs.Tidy

/-!
# Confined names

Names reach the text of a statement in two ways only, as a column name cut down to its alphabet and
as the wildcard of one table, and everything else that a caller names is bound. So without texts in
the caller's own words a statement is tidy, whatever its names are: no name brings in a quote, a
comment, a parenthesis or a placeholder (`confined_of_build`).
-/

namespace Sqlwright

/-! ## Names -/

/-- What names leave in a text needs no care. -/
theorem isPlainChar_of_isColumnChar {c : Char} (h : Name.isColumnChar c = true ∨ c = '*') :
    isPlainChar c = true := by
  rw [isPlainChar, Bool.and_eq_true, decide_eq_true_iff]
  constructor
  · rw [isStatementChar]
    rcases h with h | rfl
    · rw [Name.isColumnChar, Bool.or_eq_true_iff] at h
      rcases h with h | h
      · rw [h, Bool.true_or]
      · rw [beq_iff_eq.1 h]
        decide
    · decide
  · intro hm
    have hnone : ∀ d ∈ "()-".toList, ¬(Name.isColumnChar d = true ∨ d = '*') :=
      List.all_iff_forall_prop.1 (by decide)
    exact hnone c hm h

/-- A text made of such characters is tidy. -/
theorem IsTidy.of_columnChars {s : String}
    (h : ∀ c ∈ s.toList, Name.isColumnChar c = true ∨ c = '*') : IsTidy s := by
  have hunmarked : ∀ c ∈ s.toList, c ≠ '?' := by
    rintro c hc rfl
    exact absurd (h _ hc) (by decide)
  refine .of_isPlainText ?_
  rw [isPlainText, Bool.and_eq_true, List.all_eq_true]
  exact ⟨fun c hc => isPlainChar_of_isColumnChar (h c hc), standAlone_of_unmarked hunmarked true⟩

/-! ## Conditions -/

namespace Condition

theorem isTidy_sanitize (name : String) : IsTidy (Name.sanitize name) :=
  .of_columnChars fun _ hc => .inl (Name.isColumnChar_of_mem_sanitize hc)

/-- What is asked of a column is tidy if the name of the column is. -/
theorem Asks.isTidy {column : String} (hc : IsTidy column) {f : Fragment} (h : Asks column f) :
    IsTidy f.sql := by
  have hspace : IsTidy " " := .of_isPlainText (by decide)
  cases h with
  | fixed tail known sql =>
    have htails : ∀ t ∈ fixedTails, isPlainText t.1 = true := by decide
    rw [sql]
    exact hc.around hspace (.of_isPlainText (htails _ known)) (by decide) (by decide)
  | list keyword known values sql =>
    have hwords : ∀ k ∈ listWords, isPlainText (k ++ " ") = true ∧ endsApart (k ++ " ") = true := by
      decide
    obtain ⟨hplain, hend⟩ := hwords keyword known
    have hlist := IsTidy.behind (.of_isPlainText hplain) hend
      (IsTidy.repeated (s := "?") (.of_isPlainText (by decide)) f.params.length).enclosed
    have htext : keyword ++ " (" ++ commaSeparated f.params.length "?" ++ ")"
        = keyword ++ " " ++ ("(" ++ commaSeparated f.params.length "?" ++ ")") := by
      have hopen : " (" = " " ++ "(" := by decide
      simp only [hopen, String.append_assoc]
    rw [sql, htext]
    exact hc.around hspace hlist (by decide) (by decide)

theorem Connective.isTidy_separator (c : Connective) :
    IsTidy c.separator ∧ beginsApart c.separator = true ∧ endsApart c.separator = true := by
  cases c <;> exact ⟨.of_isPlainText (by decide), by decide, by decide⟩

/-- The compiler keeps texts tidy. -/
theorem kept_isTidy : Kept fun f => IsTidy f.sql where
  asks {name} _ h := h.isTidy (isTidy_sanitize name)
  combine c ps h := by
    obtain ⟨hs, hb, he⟩ := c.isTidy_separator
    refine hs.intercalate hb he fun t ht => ?_
    obtain ⟨p, hp, rfl⟩ := List.mem_map.1 ht
    have htidy := h p (mem_spoken_iff.1 hp).1
    rw [Part.text]
    split
    · exact htidy.enclosed
    · exact htidy
  combineChildren c fs h := by
    obtain ⟨hs, hb, he⟩ := c.isTidy_separator
    refine hs.intercalate hb he fun t ht => ?_
    obtain ⟨f, hf, rfl⟩ := List.mem_map.1 ht
    exact (h f (List.mem_filter.1 hf).1).enclosed

end Condition

/-! ## Select lists and payloads -/

theorem Field.isTidy {field : Field} (h : field.callerTexts = []) :
    IsTidy field.fragment.sql := by
  cases field with
  | star => exact .of_isPlainText (by decide)
  | column name =>
    rw [Field.fragment]
    split
    · rename_i hw
      exact .of_columnChars (Name.isColumnChar_of_isDottedWildcard hw)
    · exact .literal (by decide)
  | aliased column label => exact .literal (by decide)
  | raw sql label params => cases h

theorem SelectList.isTidy {fields : SelectList} (h : fields.callerTexts = []) :
    IsTidy fields.fragment.sql := by
  have hfields : ∀ field ∈ distinct fields, IsTidy field.fragment.sql := fun field hm =>
    field.isTidy (List.flatMap_eq_nil_iff.1 h field (mem_of_mem_distinctFrom hm))
  rw [SelectList.fragment]
  split
  · exact .of_isPlainText (by decide)
  · have hlist := IsTidy.listed (List.forall_mem_map.2 (List.forall_mem_map.2 hfields))
    exact hlist.enclose (.of_isPlainText (by decide)) (by decide)

theorem Assignment.isTidy (column : String) (a : Assignment) :
    IsTidy (a.fragment column).sql := by
  cases a with
  | set v => exact .literal (by decide)
  | increment delta => exact .literal (by decide)
  | decrement delta =>
    have hfront : IsTidy "?? = ??" := .of_isPlainText (by decide)
    exact hfront.around .dash (t := "?") (.of_isPlainText (by decide)) (by decide) (by decide)

theorem Assignments.isTidy {values : Assignments} {f : Fragment} (h : values.fragment = .ok f) :
    IsTidy f.sql := by
  obtain ⟨-, rfl⟩ := Assignments.fragment_eq_ok_iff.1 h
  have hitems : ∀ g ∈ values.entries.map fun e => e.2.fragment e.1, IsTidy g.sql :=
    List.forall_mem_map.2 fun e _ => e.2.isTidy e.1
  exact (IsTidy.listed (List.forall_mem_map.2 hitems)).enclose (.of_isPlainText (by decide))
    (by decide)

theorem Insertion.isTidy {table : String} {options : InsertOptions} {rows : List Row}
    {f : Fragment} (h : fragment table options rows = .ok f) : IsTidy f.sql := by
  obtain ⟨first, others, values, -, -, rfl⟩ := exists_of_fragment h
  have hhead : ∃ head, head = "INSERT " ++ (if options.ignore then "IGNORE " else "") ++ "INTO ?? "
      ∧ isPlainText head = true ∧ endsApart head = true := by
    cases options.ignore <;> exact ⟨_, rfl, by decide, by decide⟩
  obtain ⟨head, hhead, hplain, hend⟩ := hhead
  have hcolumns := (IsTidy.repeated (s := "??") (.of_isPlainText (by decide))
    first.keys.length).enclosed
  have hgroup := (IsTidy.repeated (s := "?") (.of_isPlainText (by decide))
    first.keys.length).enclosed
  have hopening := (IsTidy.of_isPlainText hplain).behind hend hcolumns
  have hrows := hopening.around (m := " VALUES ") (.of_isPlainText (by decide))
    (hgroup.repeated (first :: others).length) (by decide) (by decide)
  have hduplicate : IsTidy (duplicateFragment options.onDuplicate).sql ∧
      ((duplicateFragment options.onDuplicate).sql = "" ∨
        beginsApart (duplicateFragment options.onDuplicate).sql = true) := by
    cases options.onDuplicate with
    | none => exact ⟨.empty, .inl rfl⟩
    | some row =>
      rw [duplicateFragment]
      split
      · exact ⟨.empty, .inl rfl⟩
      · refine ⟨IsTidy.behind (.of_isPlainText (by decide)) (by decide)
          (IsTidy.repeated (.of_isPlainText (by decide)) _), .inr ?_⟩
        simp [beginsApart, isDelimiter]
  have htext : ∀ columns groups duplicate : String,
      "INSERT " ++ (if options.ignore then "IGNORE " else "") ++ "INTO ?? (" ++ columns
          ++ ") VALUES " ++ groups ++ duplicate
        = head ++ ("(" ++ columns ++ ")") ++ " VALUES " ++ groups ++ duplicate := by
    intro columns groups duplicate
    have hopen : "INTO ?? (" = "INTO ?? " ++ "(" := by decide
    have hclose : ") VALUES " = ")" ++ " VALUES " := by decide
    simp only [hhead, hopen, hclose, String.append_assoc]
  show IsTidy (_ ++ _ ++ _ ++ _ ++ _ ++ _ ++ _)
  rw [htext]
  obtain ⟨htidy, hempty | hbegin⟩ := hduplicate
  · rw [hempty, String.append_empty]
    exact hrows
  · exact hrows.append htidy (.inr hbegin)

/-! ## Clauses -/

theorem TableRef.isTidy (r : TableRef) : IsTidy r.fragment.sql := by
  rw [TableRef.fragment]
  split <;> exact .literal (by decide)

theorem Fragment.isTidy_withLabel {f : Fragment} (h : IsTidy f.sql) (label : Option String) :
    IsTidy (f.withLabel label).sql := by
  rw [Fragment.withLabel]
  split
  · exact h.append (.of_isPlainText (by decide)) (.inr (by decide))
  · exact h

/-- The call of a function on a star or on a bound name. -/
theorem isTidy_call (word argument : String) (hw : isPlainText word = true)
    (ha : isPlainText argument = true) : IsTidy (word ++ ("(" ++ argument ++ ")")) := by
  have hcall : beginsApart ("(" ++ argument ++ ")") = true := by
    simp [beginsApart, isDelimiter]
  exact (IsTidy.of_isPlainText hw).append (IsTidy.of_isPlainText ha).enclosed (.inr hcall)

theorem isTidy_countFragment (field : String) : IsTidy (countFragment field).sql := by
  rw [countFragment]
  split
  · exact isTidy_call "SELECT COUNT" "*" (by decide) (by decide)
  · exact isTidy_call "SELECT COUNT" "??" (by decide) (by decide)

theorem isTidy_aggregate (function : Aggregate) :
    IsTidy ("SELECT " ++ function.word ++ "(??)") := by
  have hcall := isTidy_call ("SELECT " ++ function.word) "??"
    (by cases function <;> decide) (by decide)
  simpa [String.append_assoc] using hcall

/-- Every clause of an opening call without the caller's own texts is tidy. -/
theorem Start.isTidy {s : Start} {clauses : List Clause} (h : s.clauses = .ok clauses)
    (ht : s.callerTexts = []) : ∀ clause ∈ clauses, IsTidy clause.2.sql := by
  cases s with
  | select fields =>
    simp only [Start.clauses, bind_eq_ok_iff, pure_eq_ok_iff] at h
    obtain ⟨list, hlist, rfl⟩ := h
    rw [Start.callerTexts, Input.callerTexts, hlist] at ht
    exact List.forall_mem_singleton.2 (SelectList.isTidy ht)
  | count field label =>
    cases h
    exact List.forall_mem_singleton.2 (Fragment.isTidy_withLabel (isTidy_countFragment field) label)
  | aggregate function field label =>
    cases h
    exact List.forall_mem_singleton.2 (Fragment.isTidy_withLabel (isTidy_aggregate function) label)
  | update table =>
    simp only [Start.clauses, bind_eq_ok_iff, pure_eq_ok_iff] at h
    obtain ⟨-, -, rfl⟩ := h
    exact List.forall_mem_singleton.2 (.literal (by decide))
  | updateWith table values options =>
    simp only [Start.clauses, bind_eq_ok_iff, pure_eq_ok_iff] at h
    obtain ⟨-, -, read, -, prepared, -, set, hset, rfl⟩ := h
    refine List.forall_mem_cons.2 ⟨.literal (by decide), ?_⟩
    exact List.forall_mem_singleton.2 (Assignments.isTidy hset)
  | insert table rows options =>
    simp only [Start.clauses, bind_eq_ok_iff, pure_eq_ok_iff] at h
    obtain ⟨-, -, read, -, f, hf, rfl⟩ := h
    exact List.forall_mem_singleton.2 (Insertion.isTidy hf)
  | deleteFrom table =>
    simp only [Start.clauses, bind_eq_ok_iff, pure_eq_ok_iff] at h
    obtain ⟨-, -, rfl⟩ := h
    exact List.forall_mem_singleton.2 (.literal (by decide))

/-- The clause of any other call without the caller's own texts is tidy. -/
theorem Step.isTidy {s : Step} {guarded : Bool} {clause : Clause}
    (h : s.clause? guarded = .ok (some clause)) (ht : s.callerTexts = []) :
    IsTidy clause.2.sql := by
  cases s with
  | source table label =>
    simp only [Step.clause?, bind_eq_ok_iff, pure_eq_ok_iff, Option.some.injEq] at h
    obtain ⟨-, -, rfl⟩ := h
    exact (TableRef.isTidy _).enclose (.of_isPlainText (by decide)) (by decide)
  | join kind table label criterion => cases ht
  | set values =>
    simp only [Step.clause?, bind_eq_ok_iff, pure_eq_ok_iff, Option.some.injEq] at h
    obtain ⟨read, -, set, hset, rfl⟩ := h
    exact Assignments.isTidy hset
  | filter condition =>
    simp only [Step.clause?, filterClause, bind_eq_ok_iff] at h
    obtain ⟨tree, htree, f, hf, h⟩ := h
    rw [Step.callerTexts, Input.callerTexts, htree] at ht
    have hnone : Condition.callerTexts tree = [] := ht
    have htidy : IsTidy f.sql := Condition.kept_isTidy.predicate hf (by simp [hnone])
    split at h
    · split at h <;> cases h
    · cases h
      exact htidy.enclose (.of_isPlainText (by decide)) (by decide)
  | group fields =>
    rw [Step.clause?] at h
    split at h
    · cases h
    · cases h
      exact IsTidy.behind (.of_isPlainText (by decide)) (by decide)
        (IsTidy.repeated (.of_isPlainText (by decide)) _)
  | order items =>
    rw [Step.clause?] at h
    split at h
    · cases h
    · cases h
      have hitems : ∀ i : OrderItem, isPlainText ("?? " ++ i.direction.word) = true := by
        intro i
        cases i.direction <;> decide
      exact IsTidy.behind (.of_isPlainText (by decide)) (by decide)
        (.listed (List.forall_mem_map.2 fun i _ => .of_isPlainText (hitems i)))
  | limit count =>
    cases count with
    | none => cases h
    | some n => cases h; exact .literal (by decide)
  | offset count =>
    cases count with
    | none => cases h
    | some n => cases h; exact .literal (by decide)
  | rebind executor => cases h

/-! ## Statements -/

/-- A program of calls without texts in the caller's own words: no such fields, no such predicates
and no joins. -/
def Program.IsNameOnly (p : Program) : Prop :=
  p.start.callerTexts ++ p.steps.flatMap Step.callerTexts = []

/-- What the calls of such a program add is tidy. -/
theorem Program.isTidy_fragments {p : Program} (hp : p.IsNameOnly) :
    ∀ f ∈ p.fragments, IsTidy f.sql := by
  obtain ⟨hstart, hsteps⟩ := List.append_eq_nil_iff.1 hp
  refine List.forall_mem_append.2 ⟨?_, ?_⟩
  · rw [Start.fragments]
    split
    · rename_i clauses hclauses
      exact List.forall_mem_map.2 (Start.isTidy hclauses hstart)
    · simp
  · intro f hf
    obtain ⟨s, hs, hfs⟩ := List.mem_flatMap.1 hf
    rw [Step.fragments] at hfs
    split at hfs
    · rename_i clause hclause
      rw [List.mem_singleton.1 hfs]
      exact Step.isTidy hclause (List.flatMap_eq_nil_iff.1 hsteps s hs)
    · cases hfs

theorem Program.isTidy_statement {b : Builder} {p : Program} {q : Query}
    (h : b.build p.start p.steps = .ok q) (hp : p.IsNameOnly) : IsTidy q.statement.sql := by
  rw [Program.statement_run h]
  exact IsTidy.intercalate (.of_isPlainText (by decide)) (by decide) (by decide)
    (List.forall_mem_map.2 (p.isTidy_fragments hp))

/-- Names stay within their places: whatever the tables, columns and labels of a program are called,
as long as it has no texts in the caller's own words, the text of its statement keeps to the
alphabet, its parentheses are balanced and none closes before it opens, and every dash in it stands
between two spaces. So nothing in it ends a name or a statement, or opens a text or a comment. -/
theorem confined_of_build {b : Builder} {start : Start} {steps : List Step} {q : Query}
    (h : b.build start steps = .ok q) (hp : (Program.mk start steps).IsNameOnly) :
    (∀ c ∈ q.statement.sql.toList, isStatementChar c = true) ∧
    IsNested q.statement.sql.toList ∧ IsSpaced q.statement.sql.toList ∧
    ∀ b ∈ breakouts, ¬b.toList <:+: q.statement.sql.toList := by
  have htidy := Program.isTidy_statement (p := ⟨start, steps⟩) h hp
  exact ⟨htidy.chars, htidy.nested, htidy.spaced, htidy.not_breakout⟩

/-- Names that try to break out wherever a program takes a name. -/
def hostileSteps : List Step :=
  [.source "t\x60;--" (some "/*"),
   .filter (.ready [.column "a=1); -- \\" (.ops [.compare .le .null]),
     .group .or [[.column "b'\"?" (.oneOf [.null, .text "?"])], []]]),
   .group ["??", "#"], .order [⟨"(", .descending⟩], .limit (some 1)]

theorem confined_of_hostileSteps :
    ∃ q, (Builder.mk none).build
        (.select (.ready [.column "u.*", .column "u.*--", .aliased "'" ")"])) hostileSteps
        = .ok q ∧
      q.statement.sql = "SELECT u.*, ??, ?? AS ?? FROM ?? AS ?? "
        ++ "WHERE a1 <= ? AND (b IN (?, ?)) GROUP BY ??, ?? ORDER BY ?? DESC LIMIT ?" ∧
      (∀ c ∈ q.statement.sql.toList, isStatementChar c = true) ∧
      IsNested q.statement.sql.toList ∧ IsSpaced q.statement.sql.toList ∧
      ∀ b ∈ breakouts, ¬b.toList <:+: q.statement.sql.toList := by
  obtain ⟨q, hq, hsql⟩ : ∃ q, (Builder.mk none).build
      (.select (.ready [.column "u.*", .column "u.*--", .aliased "'" ")"])) hostileSteps = .ok q ∧
      q.statement.sql = "SELECT u.*, ??, ?? AS ?? FROM ?? AS ?? "
        ++ "WHERE a1 <= ? AND (b IN (?, ?)) GROUP BY ??, ?? ORDER BY ?? DESC LIMIT ?" :=
    ⟨_, rfl, rfl⟩
  exact ⟨q, hq, hsql, confined_of_build hq rfl⟩

end Sqlwright
