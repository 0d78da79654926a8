import Sqlwright.Proofs.Counting
import Sqlwright.Proofs.Rendering
import Sqlwright.Query.Step

/-!
# Balanced clauses

Every piece of a statement has as many parameters as placeholders, provided that the texts which
the caller wrote do: the predicates and expressions in the caller's own words with the parameters
they bring, the labels of such expressions, and the criteria of joins. Those texts are collected
from the arguments of a call as fragments (`Step.callerTexts`, `Start.callerTexts`).
-/

namespace Sqlwright

open Placeholder Fragment

/-! ## Conditions -/

namespace Condition

mutual

/-- The caller's predicates in an entry. -/
def Entry.callerTexts : Entry → List Fragment
  | .column _ _ => []
  | .group _ children => childCallerTexts children
  | .raw sql params => [⟨Text.trim sql, params⟩]

/-- The caller's predicates in a condition. -/
def callerTexts : List Entry → List Fragment
  | [] => []
  | entry :: rest => entry.callerTexts ++ callerTexts rest

/-- The caller's predicates in several conditions. -/
def childCallerTexts : List (List Entry) → List Fragment
  | [] => []
  | child :: rest => callerTexts child ++ childCallerTexts rest

end

theorem isUnmarked_sanitize (name : String) : IsUnmarked (Name.sanitize name) := by
  intro c hc heq
  have hchar := Name.isColumnChar_of_mem_sanitize hc
  rw [heq] at hchar
  exact absurd hchar (by decide)

theorem count_fixedTail {tail : String} {n : Nat} (h : (tail, n) ∈ fixedTails) :
    count tail = n := by
  have hall : ∀ t ∈ fixedTails, count t.1 = t.2 := by decide
  exact hall (tail, n) h

/-- What is asked of a column binds each of its values. -/
theorem Asks.isBalanced {column : String} (hc : IsUnmarked column) {f : Fragment}
    (h : Asks column f) : f.IsBalanced := by
  cases h with
  | fixed tail known sql =>
    rw [IsBalanced, placeholders, sql, count_append_append (by decide) (by decide),
      hc.count_eq_zero, count_fixedTail known, Nat.zero_add]
  | list keyword known values sql =>
    have hkeyword : IsUnmarked (keyword ++ " (") := by
      have hall : ∀ k ∈ listWords, IsUnmarked (k ++ " (") := by decide
      exact hall keyword known
    rw [IsBalanced, placeholders, sql, count_append_append (by decide) (by decide),
      hc.count_eq_zero, count_append_unmarked _ (by decide), count_unmarked_append hkeyword,
      count_marks (by decide), Nat.zero_add]

theorem Connective.isUnmarked_separator (c : Connective) : IsUnmarked c.separator := by
  cases c <;> decide

/-- Blank fragments that are balanced leave no parameters behind. -/
theorem flatMap_params_filter {fs : List Fragment} (h : ∀ f ∈ fs, f.IsBalanced) :
    (fs.filter fun f => !f.isBlank).flatMap params = fs.flatMap params := by
  induction fs with
  | nil => rfl
  | cons f fs ih =>
    have hrest := ih fun g hg => h g (by simp [hg])
    cases hb : f.isBlank with
    | false => simp [hb, hrest]
    | true => simp [hb, hrest, (h f (by simp)).params_eq_nil hb]

theorem isBalanced_combine (c : Connective) {ps : List Part}
    (h : ∀ p ∈ ps, p.fragment.IsBalanced) : (combine c ps).IsBalanced := by
  -- blank parts add no text but their parameters would still be bound
  have hparams : ps.flatMap (fun p => p.fragment.params)
      = (spoken ps).flatMap fun p => p.fragment.params := by
    have hall : ∀ f ∈ ps.map Part.fragment, f.IsBalanced := by simpa using h
    have hfilter := flatMap_params_filter hall
    rw [List.filter_map, List.flatMap_map, List.flatMap_map] at hfilter
    exact hfilter.symm
  have htext : ∀ (crowded : Bool), ∀ p ∈ spoken ps,
      IsBalanced ⟨p.text crowded, p.fragment.params⟩ := by
    intro crowded p hp
    have hpart := h p (mem_spoken_iff.1 hp).1
    rw [Part.text]
    split
    · exact hpart.enclose
    · exact hpart
  have hjoin := isBalanced_join (List.forall_mem_map.2 (htext (decide (1 < (spoken ps).length))))
    c.isUnmarked_separator c.separator_ne_empty
  rw [Fragment.join, List.map_map, List.flatMap_map] at hjoin
  rw [combine, hparams]
  exact hjoin

theorem isBalanced_combineChildren (c : Connective) {fs : List Fragment}
    (h : ∀ f ∈ fs, f.IsBalanced) : (combineChildren c fs).IsBalanced := by
  have henclosed : ∀ f ∈ fs.filter fun f => !f.isBlank, (f.enclose "(" ")").IsBalanced :=
    fun f hf => (h f (List.mem_filter.1 hf).1).enclose
  have hjoin := isBalanced_join (List.forall_mem_map.2 henclosed) c.isUnmarked_separator
    c.separator_ne_empty
  rw [Fragment.join, List.map_map, List.flatMap_map] at hjoin
  rw [combineChildren, ← flatMap_params_filter h]
  exact hjoin

/-- A property of fragments that the compiler keeps: what is asked of a column has it, and so do
parts and conditions that are joined. -/
structure Kept (P : Fragment → Prop) : Prop where
  asks : ∀ {name : String} {f : Fragment}, Asks (Name.sanitize name) f → P f
  combine : ∀ (c : Connective) {ps : List Part}, (∀ p ∈ ps, P p.fragment) → P (combine c ps)
  combineChildren : ∀ (c : Connective) {fs : List Fragment}, (∀ f ∈ fs, P f) →
    P (combineChildren c fs)

namespace Kept

variable {P : Fragment → Prop}

mutual

theorem entry (hP : Kept P) {entry : Entry} {ps : List Part} (h : entry.parts = .ok ps)
    (ht : ∀ f ∈ entry.callerTexts, P f) : ∀ p ∈ ps, P p.fragment := by
  cases entry with
  | column name test =>
    obtain ⟨fs, hfs, rfl⟩ := parts_column_eq_ok_iff.1 h
    intro p hp
    obtain ⟨f, hf, rfl⟩ := List.mem_map.1 hp
    exact hP.asks (asks_of_columnFragments hfs f hf)
  | group c children =>
    obtain ⟨-, fs, hfs, rfl⟩ := parts_group_eq_ok_iff.1 h
    rw [Entry.callerTexts] at ht
    exact List.forall_mem_singleton.2 (hP.combineChildren c (Kept.children hP hfs ht))
  | raw sql params =>
    obtain rfl := parts_raw_eq_ok_iff.1 h
    rw [Entry.callerTexts] at ht
    exact List.forall_mem_singleton.2 (List.forall_mem_singleton.1 ht)

theorem node (hP : Kept P) {node : List Entry} {ps : List Part} (h : nodeParts node = .ok ps)
    (ht : ∀ f ∈ callerTexts node, P f) : ∀ p ∈ ps, P p.fragment := by
  cases node with
  | nil => cases h; simp
  | cons entry rest =>
    obtain ⟨qs, hq, rs, hr, rfl⟩ := nodeParts_cons_eq_ok_iff.1 h
    rw [callerTexts, List.forall_mem_append] at ht
    exact List.forall_mem_append.2 ⟨Kept.entry hP hq ht.1, Kept.node hP hr ht.2⟩

theorem children (hP : Kept P) {c : Connective} {children : List (List Entry)}
    {fs : List Fragment} (h : childPredicates c children = .ok fs)
    (ht : ∀ f ∈ childCallerTexts children, P f) : ∀ f ∈ fs, P f := by
  cases children with
  | nil => cases h; simp
  | cons child rest =>
    obtain ⟨ps, hp, gs, hg, rfl⟩ := childPredicates_cons_eq_ok_iff.1 h
    rw [childCallerTexts, List.forall_mem_append] at ht
    exact List.forall_mem_cons.2
      ⟨hP.combine c (Kept.node hP hp ht.1), Kept.children hP hg ht.2⟩

end

/-- The predicate of a condition has a property that is kept if the caller's predicates do. -/
theorem predicate (hP : Kept P) {c : Connective} {tree : Tree} {f : Fragment}
    (h : predicate c tree = .ok f) (ht : ∀ f ∈ callerTexts tree, P f) : P f := by
  obtain ⟨ps, hps, rfl⟩ := predicate_eq_ok_iff.1 h
  exact hP.combine c (hP.node hps ht)

end Kept

theorem kept_isBalanced : Kept IsBalanced where
  asks {name} _ h := h.isBalanced (isUnmarked_sanitize name)
  combine c _ h := isBalanced_combine c h
  combineChildren c _ h := isBalanced_combineChildren c h

end Condition

/-! ## Select lists -/

namespace Name

/-- A character is quoted without marks, unless it is one. -/
theorem countFrom_quoteChar (run : Nat) {c : Char} (hc : c ≠ '?') (t : List Char) :
    countFrom run (quoteChar c ++ t) = weight run + countFrom 0 t := by
  rw [quoteChar]
  split
  · simp [countFrom, weight]
  · split
    · simp [countFrom, weight]
    · rw [List.singleton_append, countFrom_of_ne run hc]

theorem countFrom_flatMap_quoteChar (run : Nat) (cs : List Char) :
    countFrom run (cs.flatMap quoteChar ++ ['\x60']) = countFrom run cs := by
  induction cs generalizing run with
  | nil =>
    rw [List.flatMap_nil, List.nil_append, countFrom_of_ne run (by decide)]
    rfl
  | cons c cs ih =>
    rw [List.flatMap_cons, List.append_assoc]
    by_cases hc : c = '?'
    · subst hc
      have hmark : quoteChar '?' = ['?'] := rfl
      rw [hmark, List.singleton_append, countFrom, if_pos rfl, ih, countFrom, if_pos rfl]
    · rw [countFrom_quoteChar run hc, ih, countFrom_of_ne run hc]

/-- Quoting a name ends no run of marks and starts none. -/
theorem count_quote (name : String) : count (quote name) = count name := by
  rw [count, quote, String.toList_ofList, countFrom_of_ne 0 (by decide),
    countFrom_flatMap_quoteChar, weight, count]
  simp

theorem isColumnChar_of_endsAsWildcard {cs : List Char} (h : endsAsWildcard cs = true) :
    ∀ c ∈ cs, isColumnChar c = true ∨ c = '*' := by
  induction cs with
  | nil => cases h
  | cons c cs ih =>
    rw [endsAsWildcard.eq_def] at h
    split at h
    · rename_i heq
      rw [heq]
      simp [isColumnChar]
    · rename_i heq
      cases heq
      rw [Bool.and_eq_true] at h
      exact List.forall_mem_cons.2 ⟨.inl (by rw [isColumnChar, h.1, Bool.true_or]), ih h.2⟩
    · cases h

/-- The wildcard of one table keeps to the alphabet of column names, apart from its star. -/
theorem isColumnChar_of_isDottedWildcard {name : String} (h : isDottedWildcard name = true) :
    ∀ c ∈ name.toList, isColumnChar c = true ∨ c = '*' := by
  rw [isDottedWildcard] at h
  split at h
  · rename_i c cs heq
    rw [Bool.and_eq_true] at h
    rw [heq]
    refine List.forall_mem_cons.2 ⟨.inl ?_, isColumnChar_of_endsAsWildcard h.2⟩
    have hword : isWordChar c = true := by
      rcases Bool.or_eq_true_iff.1 h.1 with hc | hc
      · rw [isWordChar, hc, Bool.true_or, Bool.true_or]
      · rw [isWordChar, hc, Bool.or_true]
    rw [isColumnChar, hword, Bool.true_or]
  · cases h

theorem isUnmarked_of_isDottedWildcard {name : String} (h : isDottedWildcard name = true) :
    IsUnmarked name := by
  intro c hc heq
  rcases isColumnChar_of_isDottedWildcard h c hc with hchar | hstar
  · rw [heq] at hchar
    exact absurd hchar (by decide)
  · rw [heq] at hstar
    exact absurd hstar (by decide)

end Name

/-- The caller's own texts in a field. -/
def Field.callerTexts : Field → List Fragment
  | .raw sql label params => ⟨sql, params⟩ :: label.toList.map (⟨·, []⟩)
  | _ => []

/-- The caller's own texts in a select list. -/
def SelectList.callerTexts (fields : SelectList) : List Fragment :=
  fields.flatMap Field.callerTexts

theorem Field.isBalanced {field : Field} (h : ∀ f ∈ field.callerTexts, f.IsBalanced) :
    field.fragment.IsBalanced := by
  cases field with
  | star => rfl
  | column name =>
    rw [Field.fragment]
    split
    · rename_i hw
      exact (Name.isUnmarked_of_isDottedWildcard hw).count_eq_zero
    · exact isBalanced_of_count 1 (by decide) rfl
  | aliased column label => exact isBalanced_of_count 2 (by decide) rfl
  | raw sql label params =>
    have hsql : IsBalanced ⟨sql, params⟩ := h _ (by simp [Field.callerTexts])
    cases label with
    | none => exact hsql
    | some label =>
      have hlabel : IsBalanced ⟨label, []⟩ := h _ (by simp [Field.callerTexts])
      have hquote : IsBalanced ⟨Name.quote label, []⟩ := (Name.count_quote label).trans hlabel
      have hboth := hsql.append hquote (m := " AS ")
      rw [List.append_nil] at hboth
      exact hboth

theorem SelectList.mem_of_mem_distinctFrom {fields : SelectList} {seen : List String}
    {field : Field} (h : field ∈ distinctFrom seen fields) : field ∈ fields := by
  induction fields generalizing seen with
  | nil => cases h
  | cons f fs ih =>
    rw [distinctFrom] at h
    split at h
    · exact List.mem_cons_of_mem f (ih h)
    · rcases List.mem_cons.1 h with rfl | h
      · exact List.mem_cons_self
      · exact List.mem_cons_of_mem f (ih h)

theorem SelectList.fits_fragment {fields : SelectList}
    (h : ∀ f ∈ fields.callerTexts, f.IsBalanced) : fields.fragment.Fits := by
  have hfields : ∀ field ∈ distinct fields, field.fragment.IsBalanced := by
    intro field hm
    have hmem : field ∈ fields := mem_of_mem_distinctFrom hm
    exact field.isBalanced fun f hf => h f (List.mem_flatMap.2 ⟨field, hmem, hf⟩)
  rw [SelectList.fragment]
  split
  · exact ⟨rfl, by decide⟩
  · exact (isBalanced_join (List.forall_mem_map.2 hfields)).fits_enclose

/-! ## Payloads -/

theorem Assignment.isBalanced (column : String) (a : Assignment) :
    (a.fragment column).IsBalanced := by
  cases a with
  | set v => exact isBalanced_of_count 2 (by decide) rfl
  | increment delta => exact isBalanced_of_count 3 (by decide) rfl
  | decrement delta => exact isBalanced_of_count 3 (by decide) rfl

theorem Assignments.fits_fragment {values : Assignments} {f : Fragment}
    (h : values.fragment = .ok f) : f.Fits := by
  obtain ⟨-, rfl⟩ := Assignments.fragment_eq_ok_iff.1 h
  have hall : ∀ f ∈ values.entries.map fun e => e.2.fragment e.1, f.IsBalanced :=
    List.forall_mem_map.2 fun e _ => e.2.isBalanced e.1
  exact (isBalanced_join hall).fits_enclose

namespace Insertion

/-- Every row gives one value for each column. -/
theorem length_alignFrom {columns : List String} {number : Nat} {rows : List Row}
    {values : List Value} (h : alignFrom columns number rows = .ok values) :
    values.length = rows.length * columns.length := by
  induction rows generalizing number values with
  | nil => cases h; simp
  | cons row rows ih =>
    rw [alignFrom] at h
    split at h
    · cases h
    · rename_i aligned haligned
      simp only [bind_eq_ok_iff, pure_eq_ok_iff] at h
      obtain ⟨others, hothers, rfl⟩ := h
      -- a row is refused unless it has a value for every column
      have hrow : aligned.length = columns.length := by
        rw [align?] at haligned
        split at haligned
        · exact (mapM_eq_some_iff.1 haligned).length_eq.symm
        · cases haligned
      rw [List.length_append, hrow, ih hothers, List.length_cons, Nat.succ_mul, Nat.add_comm]

theorem fits_duplicateFragment (row : Option Row) : (duplicateFragment row).Fits := by
  cases row with
  | none => exact fits_empty
  | some row =>
    rw [duplicateFragment]
    split
    · exact fits_empty
    · have hvalues : IsBalanced ⟨commaSeparated row.size "?? = ?",
          row.entries.flatMap fun e => [.text e.1, e.2]⟩ := by
        have hmarks : count "?? = ?" = 2 := by decide
        rw [IsBalanced, placeholders, count_commaSeparated, hmarks, List.length_flatMap]
        simp only [List.length_cons, List.length_nil, List.map_const', List.sum_replicate_nat,
          Keyed.size]
      exact hvalues.fits_behind

/-- An INSERT binds its table, each of its columns, and one value for each column of each row. -/
theorem fits_fragment {table : String} {options : InsertOptions} {rows : List Row} {f : Fragment}
    (h : fragment table options rows = .ok f) : f.Fits := by
  obtain ⟨first, others, values, -, hvalues, rfl⟩ := exists_of_fragment h
  have hdup := fits_duplicateFragment options.onDuplicate
  have hlength := length_alignFrom hvalues
  -- the head of the statement ends behind the placeholder of the table
  have hhead : ∀ rest : String, "INSERT " ++ (if options.ignore then "IGNORE " else "")
        ++ "INTO ?? (" ++ rest
      = "INSERT " ++ (if options.ignore then "IGNORE " else "") ++ "INTO ??" ++ " (" ++ rest := by
    intro rest
    cases options.ignore <;> simp
  have htable : count ("INSERT " ++ (if options.ignore then "IGNORE " else "") ++ "INTO ??")
      = 1 := by
    cases options.ignore <;> decide
  have hgroup : count ("(" ++ commaSeparated first.keys.length "?" ++ ")")
      = first.keys.length := by
    rw [count_append_unmarked _ (by decide), count_unmarked_append (by decide),
      count_marks (by decide)]
  have hcolumns : count (commaSeparated first.keys.length "??") = first.keys.length :=
    count_marks (by decide) _
  constructor
  · rw [IsBalanced, placeholders, hhead, count_append hdup.front,
      count_append_append (by decide) (by decide), count_append_append (by decide) (by decide),
      htable, hcolumns, count_commaSeparated, hgroup]
    have hdupcount : count (duplicateFragment options.onDuplicate).sql
        = (duplicateFragment options.onDuplicate).params.length := hdup.balanced
    simp only [List.length_cons, List.length_append, List.length_map, hlength, hdupcount]
    omega
  · simp [String.toList_append]

end Insertion

/-! ## Clauses -/

/-- The caller's own texts in an argument, if it can be read. -/
def Input.callerTexts {α : Type} (read : Document → Except Fault α) (texts : α → List Fragment)
    (input : Input α) : List Fragment :=
  match input.resolve read with
  | .ok a => texts a
  | .error _ => []

/-- The caller's own texts in the arguments of an opening call. -/
def Start.callerTexts : Start → List Fragment
  | .select fields => fields.callerTexts SelectList.read SelectList.callerTexts
  | _ => []

/-- The caller's own texts in the arguments of a call that continues a statement. -/
def Step.callerTexts : Step → List Fragment
  | .join _ _ _ criterion => [⟨criterion, []⟩]
  | .filter condition => condition.callerTexts Condition.readTree Condition.callerTexts
  | _ => []

namespace Step

@[simp] theorem callerTexts_source (table : String) (label : Option String) :
    (source table label).callerTexts = [] := rfl

@[simp] theorem callerTexts_order (items : List OrderItem) :
    (order items).callerTexts = [] := rfl

@[simp] theorem callerTexts_limit (count : Option UInt64) : (limit count).callerTexts = [] := rfl

@[simp] theorem callerTexts_offset (count : Option UInt64) :
    (offset count).callerTexts = [] := rfl

end Step

theorem TableRef.isBalanced (r : TableRef) : r.fragment.IsBalanced := by
  rw [TableRef.fragment]
  split
  · exact isBalanced_of_count 2 (by decide) rfl
  · exact isBalanced_of_count 1 (by decide) rfl

theorem Fragment.Fits.withLabel {f : Fragment} (h : f.Fits) (label : Option String) :
    (f.withLabel label).Fits := by
  rw [Fragment.withLabel]
  split
  · rename_i a _
    have hlabel : IsBalanced ⟨"??", [.text a]⟩ := isBalanced_of_count 1 (by decide) rfl
    have hboth := h.balanced.append hlabel (m := " AS ")
    rw [String.append_assoc] at hboth
    refine ⟨hboth, ?_⟩
    have hfront := h.front
    cases hs : f.sql.toList <;> simp_all
  · exact h

theorem fits_countFragment (field : String) : (countFragment field).Fits := by
  rw [countFragment]
  split
  · exact fits_of_count 0 (by decide) rfl (by decide)
  · exact fits_of_count 1 (by decide) rfl (by decide)

/-- Every clause of an opening call fits. -/
theorem Start.fits_clauses {s : Start} {clauses : List Clause} (h : s.clauses = .ok clauses)
    (ht : ∀ f ∈ s.callerTexts, f.IsBalanced) : ∀ clause ∈ clauses, clause.2.Fits := by
  cases s with
  | select fields =>
    simp only [Start.clauses, bind_eq_ok_iff, pure_eq_ok_iff] at h
    obtain ⟨list, hlist, rfl⟩ := h
    rw [Start.callerTexts, Input.callerTexts, hlist] at ht
    exact List.forall_mem_singleton.2 (SelectList.fits_fragment ht)
  | count field label =>
    cases h
    exact List.forall_mem_singleton.2 ((fits_countFragment field).withLabel label)
  | aggregate function field label =>
    cases h
    refine List.forall_mem_singleton.2 (Fragment.Fits.withLabel ?_ label)
    exact fits_of_count 1 (by cases function <;> decide) rfl (by cases function <;> decide)
  | update table =>
    simp only [Start.clauses, bind_eq_ok_iff, pure_eq_ok_iff] at h
    obtain ⟨-, -, rfl⟩ := h
    exact List.forall_mem_singleton.2 (fits_of_count 1 (by decide) rfl (by decide))
  | updateWith table values options =>
    simp only [Start.clauses, bind_eq_ok_iff, pure_eq_ok_iff] at h
    obtain ⟨-, -, read, -, prepared, -, set, hset, rfl⟩ := h
    refine List.forall_mem_cons.2 ⟨fits_of_count 1 (by decide) rfl (by decide), ?_⟩
    exact List.forall_mem_singleton.2 (Assignments.fits_fragment hset)
  | insert table rows options =>
    simp only [Start.clauses, bind_eq_ok_iff, pure_eq_ok_iff] at h
    obtain ⟨-, -, read, -, f, hf, rfl⟩ := h
    exact List.forall_mem_singleton.2 (Insertion.fits_fragment hf)
  | deleteFrom table =>
    simp only [Start.clauses, bind_eq_ok_iff, pure_eq_ok_iff] at h
    obtain ⟨-, -, rfl⟩ := h
    exact List.forall_mem_singleton.2 (fits_of_count 1 (by decide) rfl (by decide))

/-- The clause of any other call fits. -/
theorem Step.fits_clause? {s : Step} {guarded : Bool} {clause : Clause}
    (h : s.clause? guarded = .ok (some clause)) (ht : ∀ f ∈ s.callerTexts, f.IsBalanced) :
    clause.2.Fits := by
  cases s with
  | source table label =>
    simp only [Step.clause?, bind_eq_ok_iff, pure_eq_ok_iff, Option.some.injEq] at h
    obtain ⟨-, -, rfl⟩ := h
    exact (TableRef.isBalanced _).fits_enclose
  | join kind table label criterion =>
    simp only [Step.clause?, bind_eq_ok_iff, pure_eq_ok_iff, Option.some.injEq] at h
    obtain ⟨-, -, rfl⟩ := h
    have hcriterion : IsBalanced ⟨criterion, []⟩ := ht _ (by simp [Step.callerTexts])
    have hboth := (TableRef.isBalanced (TableRef.read table label)).append hcriterion
      (m := " ON ")
    have hword : IsUnmarked (kind.word ++ " JOIN ") := by cases kind <;> decide
    have hjoin := hboth.fits_behind hword (by cases kind <;> decide)
    simpa [Fragment.enclose, String.append_assoc] using hjoin
  | set values =>
    simp only [Step.clause?, bind_eq_ok_iff, pure_eq_ok_iff, Option.some.injEq] at h
    obtain ⟨read, -, set, hset, rfl⟩ := h
    exact Assignments.fits_fragment hset
  | filter condition =>
    simp only [Step.clause?, bind_eq_ok_iff] at h
    obtain ⟨tree, htree, h⟩ := h
    rw [Step.callerTexts, Input.callerTexts, htree] at ht
    simp only [filterClause, bind_eq_ok_iff] at h
    obtain ⟨f, hf, h⟩ := h
    split at h
    · split at h <;> cases h
    · cases h
      exact (Condition.kept_isBalanced.predicate hf ht).fits_enclose
  | group fields =>
    rw [Step.clause?] at h
    split at h
    · cases h
    · cases h
      have hfields : IsBalanced ⟨commaSeparated fields.length "??", fields.map .text⟩ :=
        isBalanced_of_count fields.length (count_marks (by decide) _) (by simp)
      exact hfields.fits_behind
  | order items =>
    rw [Step.clause?] at h
    split at h
    · cases h
    · cases h
      have hitem : ∀ i : OrderItem, IsBalanced ⟨"?? " ++ i.direction.word, [.text i.field]⟩ :=
        fun i => isBalanced_of_count 1 (by cases i.direction <;> decide) rfl
      have hitems := isBalanced_join (m := ", ")
        (List.forall_mem_map.2 fun i (_ : i ∈ items) => hitem i)
      rw [Fragment.join, List.map_map, List.flatMap_map, ← List.map_eq_flatMap] at hitems
      exact hitems.fits_behind
  | limit count =>
    cases count with
    | none => cases h
    | some n => cases h; exact fits_of_count 1 (by decide) rfl (by decide)
  | offset count =>
    cases count with
    | none => cases h
    | some n => cases h; exact fits_of_count 1 (by decide) rfl (by decide)
  | rebind executor => cases h

end Sqlwright
