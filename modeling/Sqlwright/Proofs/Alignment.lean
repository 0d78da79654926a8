import Mathlib.Data.List.Nodup
import Mathlib.Data.List.Perm.Subperm
import Sqlwright.Proofs.Alike

/-!
# The rows of an insertion

The first row of an insertion fixes its columns. Any other row is matched with them by name: it has
to have the same columns, in any order, and gives its own value for each of them
(`Insertion.fragment_aligned`). The time columns that a row lacks are appended to it before, so they
count among its columns.
-/

namespace Sqlwright

/-! ## Rows with their time columns -/

namespace InsertOptions

variable (options : InsertOptions)

/-- Whether a row has no time of its creation. -/
def lacksCreation (row : Row) : Bool := !row.contains options.ctimeField

/-- Whether a row has no time of its last change, nor gets that column as the time of its
creation. -/
def lacksChange (row : Row) : Bool :=
  !(row.contains options.utimeField || options.utimeField == options.ctimeField)

/-- The entries of a row that comes behind others, with the time columns that it lacks. Every row
that lacks a column takes a reading for it, in the order of the rows. -/
def completed (earlier : List Row) (row : Row) : List (String × Value) :=
  row.entries
    ++ (if options.lacksCreation row then
        [(options.ctimeField, options.ctimeStamp.reading (earlier.countP options.lacksCreation))]
      else [])
    ++ (if options.lacksChange row then
        [(options.utimeField, options.utimeStamp.reading (earlier.countP options.lacksChange))]
      else [])

/-- The entries of the rows, with their time columns if these are asked for. -/
def timed (rows : List Row) : List (List (String × Value)) :=
  if options.timestamps then rows.mapIdx fun i row => options.completed (rows.take i) row
  else rows.map Keyed.entries

/-- The columns of an insertion: those of its first row. -/
def columns (rows : List Row) : List String := ((options.timed rows).headD []).map Prod.fst

/-- What is written when a row breaks a key. -/
def duplicates : List (String × Value) := options.onDuplicate.elim [] Keyed.entries

end InsertOptions

namespace Insertion

variable {options : InsertOptions}

theorem entries_stampColumn (column : String) (stamp : Stamp) (next : Nat) (row : Row) :
    (stampColumn column stamp next row).1.entries
      = row.entries ++ if !row.contains column then [(column, stamp.reading next)] else [] := by
  rw [stampColumn]
  cases h : row.contains column with
  | true => exact (List.append_nil _).symm
  | false =>
    rw [Keyed.contains, decide_eq_false_iff_not] at h
    exact Keyed.put_of_not_mem h _

theorem next_stampColumn (column : String) (stamp : Stamp) (next : Nat) (row : Row) :
    (stampColumn column stamp next row).2 = next + if !row.contains column then 1 else 0 := by
  rw [stampColumn]
  cases row.contains column <;> rfl

theorem contains_stampColumn (column other : String) (stamp : Stamp) (next : Nat) (row : Row) :
    (stampColumn column stamp next row).1.contains other
      = (row.contains other || other == column) := by
  rw [stampColumn]
  cases h : row.contains column with
  | true =>
    rw [Bool.eq_iff_iff, Bool.or_eq_true, beq_iff_eq]
    exact ⟨.inl, fun hor => hor.elim id fun heq => heq ▸ h⟩
  | false =>
    rw [Keyed.contains, decide_eq_false_iff_not] at h
    show decide (other ∈ (row.insert column (stamp.reading next)).keys) = _
    rw [Keyed.keys_insert, if_neg h, Keyed.contains, Bool.eq_iff_iff]
    simp

/-- The rows behind those that are done take the readings that those left. -/
theorem entries_stampFrom (done rows : List Row) :
    (stampFrom options (done.countP options.lacksCreation) (done.countP options.lacksChange)
        rows).map Keyed.entries
      = rows.mapIdx fun i row => options.completed (done ++ rows.take i) row := by
  induction rows generalizing done with
  | nil => rfl
  | cons row rows ih =>
    have hdone := ih (done ++ [row])
    rw [List.countP_append, List.countP_append, List.countP_singleton, List.countP_singleton]
      at hdone
    simp only [stampFrom, List.map_cons, List.mapIdx_cons, entries_stampColumn, next_stampColumn,
      contains_stampColumn]
    rw [List.cons.injEq]
    constructor
    · simp [InsertOptions.completed, InsertOptions.lacksCreation, InsertOptions.lacksChange]
    · simpa [InsertOptions.lacksCreation, InsertOptions.lacksChange] using hdone

theorem entries_stamped (options : InsertOptions) (rows : List Row) :
    (stamped options rows).map Keyed.entries = options.timed rows := by
  rw [stamped, InsertOptions.timed]
  split
  · exact entries_stampFrom [] rows
  · rfl

/-! ## Matching a row with the columns -/

/-- Some entries have the columns, and give their values in the order of the columns. -/
def Matched (columns : List String) (entries : List (String × Value)) (group : List Value) :
    Prop :=
  (∀ column, column ∈ entries.map Prod.fst ↔ column ∈ columns) ∧
    List.Forall₂ (fun column v => entries.lookup column = some v) columns group

theorem exists_matched_iff {columns : List String} {entries : List (String × Value)} :
    (∃ group, Matched columns entries group) ↔
      ∀ column, column ∈ entries.map Prod.fst ↔ column ∈ columns := by
  constructor
  · rintro ⟨_, hsame, -⟩
    exact hsame
  · intro hsame
    obtain ⟨group, hgroup⟩ := exists_forall₂_iff.2 fun column hcolumn =>
      Keyed.exists_lookup_iff.2 ((hsame column).2 hcolumn)
    exact ⟨group, hsame, hgroup⟩

theorem align?_eq_some_iff {columns : List String} (hn : columns.Nodup) {row : Row}
    {group : List Value} : align? columns row = some group ↔ Matched columns row.entries group := by
  have hsize : row.size = row.keys.length := (List.length_map _).symm
  rw [align?, hsize, Option.ite_none_right_eq_some, mapM_eq_some_iff, Matched]
  refine and_congr_left fun hgroup => ?_
  -- every column of the list is one of the row
  have hsubset : columns ⊆ row.keys := fun column hcolumn =>
    Keyed.exists_lookup_iff.1 (exists_forall₂_iff.1 ⟨group, hgroup⟩ column hcolumn)
  constructor
  · intro hlength
    have hperm := (List.subperm_of_subset hn hsubset).perm_of_length_le (Nat.le_of_eq hlength)
    exact fun column => hperm.symm.mem_iff
  · intro hsame
    exact ((List.perm_ext_iff_of_nodup row.nodup hn).2 hsame).length_eq

/-- The values of some rows are those of their groups, if all rows match the columns. -/
theorem alignFrom_eq_ok_iff {columns : List String} (hn : columns.Nodup) {number : Nat}
    {rows : List Row} {values : List Value} :
    alignFrom columns number rows = .ok values ↔ ∃ groups,
      List.Forall₂ (Matched columns) (rows.map Keyed.entries) groups ∧
        groups.flatten = values := by
  induction rows generalizing number values with
  | nil => simp [alignFrom]
  | cons row rows ih =>
    simp only [alignFrom, List.map_cons, List.forall₂_cons_left_iff, ← align?_eq_some_iff hn]
    cases align? columns row with
    | none => simp
    | some group =>
      simp only [bind_eq_ok_iff, pure_eq_ok_iff, ih]
      constructor
      · rintro ⟨_, ⟨groups, hgroups, rfl⟩, rfl⟩
        exact ⟨_, ⟨group, groups, rfl, hgroups, rfl⟩, rfl⟩
      · rintro ⟨_, ⟨_, groups, ⟨⟩, hgroups, rfl⟩, rfl⟩
        exact ⟨_, ⟨groups, hgroups, rfl⟩, rfl⟩

/-! ## The statement -/

/-- The INSERT statement of some groups of values. -/
def assembled (table : String) (options : InsertOptions) (columns : List String)
    (groups : List (List Value)) : Fragment :=
  ⟨"INSERT " ++ (if options.ignore then "IGNORE " else "") ++ "INTO ?? ("
      ++ commaSeparated columns.length "??" ++ ") VALUES "
      ++ commaSeparated groups.length ("(" ++ commaSeparated columns.length "?" ++ ")")
      ++ (if options.duplicates = [] then ""
        else " ON DUPLICATE KEY UPDATE " ++ commaSeparated options.duplicates.length "?? = ?"),
    .text table :: columns.map .text ++ groups.flatten
      ++ options.duplicates.flatMap fun e => [.text e.1, e.2]⟩

theorem duplicateFragment_eq (options : InsertOptions) :
    duplicateFragment options.onDuplicate =
      ⟨if options.duplicates = [] then ""
        else " ON DUPLICATE KEY UPDATE " ++ commaSeparated options.duplicates.length "?? = ?",
        options.duplicates.flatMap fun e => [.text e.1, e.2]⟩ := by
  rw [InsertOptions.duplicates]
  cases options.onDuplicate with
  | none => rfl
  | some row =>
    rw [duplicateFragment, Option.elim]
    cases hrow : row.isEmpty with
    | true =>
      have hentries : row.entries = [] := List.isEmpty_iff.1 hrow
      rw [if_pos rfl, if_pos hentries, hentries]
      rfl
    | false =>
      rw [if_neg Bool.false_ne_true, if_neg (Keyed.isEmpty_eq_false_iff.1 hrow)]
      rfl

theorem length_timed (options : InsertOptions) (rows : List Row) :
    (options.timed rows).length = rows.length := by
  rw [InsertOptions.timed]
  split
  · exact List.length_mapIdx
  · exact List.length_map _

/-- An INSERT gathers a group of values for each row, if no row is empty and all match the first. -/
theorem fragment_eq_ok_iff {table : String} {rows : List Row} {f : Fragment} :
    fragment table options rows = .ok f ↔ rows ≠ [] ∧ (∀ row ∈ rows, row.entries ≠ []) ∧
      ∃ groups, List.Forall₂ (Matched (options.columns rows)) (options.timed rows) groups ∧
        assembled table options (options.columns rows) groups = f := by
  have hempty : rows.any Keyed.isEmpty = false ↔ ∀ row ∈ rows, row.entries ≠ [] := by
    simp [Keyed.isEmpty]
  have hentries := entries_stamped options rows
  have hlength := length_timed options rows
  rw [← hempty, fragment]
  cases rows.any Keyed.isEmpty with
  | true => simp
  | false =>
    rw [if_neg Bool.false_ne_true]
    cases hstamped : stamped options rows with
    | nil =>
      have hnil : rows = [] := by
        rw [← List.length_eq_zero_iff, ← hlength, ← hentries, hstamped]
        rfl
      simp [hnil]
    | cons first others =>
      have hcolumns : options.columns rows = first.keys := by
        rw [InsertOptions.columns, ← hentries, hstamped]
        rfl
      have hne : rows ≠ [] := by
        rintro rfl
        simp [← hentries, hstamped] at hlength
      have hn : first.keys.Nodup := first.nodup
      rw [hcolumns, ← hentries, hstamped]
      simp only [bind_eq_ok_iff, pure_eq_ok_iff, alignFrom_eq_ok_iff hn, duplicateFragment_eq]
      constructor
      · rintro ⟨_, ⟨groups, hgroups, rfl⟩, rfl⟩
        refine ⟨hne, trivial, groups, hgroups, ?_⟩
        rw [assembled, ← hgroups.length_eq, List.length_map]
      · rintro ⟨-, -, groups, hgroups, rfl⟩
        refine ⟨_, ⟨groups, hgroups, rfl⟩, ?_⟩
        rw [assembled, ← hgroups.length_eq, List.length_map]

/-! ## The order of the entries of a row -/

/-- Rows of the same entries, in any order. -/
def Reordered (row row' : Row) : Prop := row.entries.Perm row'.entries

instance (row row' : Row) : Decidable (Reordered row row') :=
  inferInstanceAs (Decidable (row.entries.Perm row'.entries))

theorem Reordered.stampColumn {row row' : Row} (h : Reordered row row') (column : String)
    (stamp : Stamp) (next : Nat) :
    Reordered (stampColumn column stamp next row).1 (stampColumn column stamp next row').1 ∧
      (stampColumn column stamp next row).2 = (stampColumn column stamp next row').2 := by
  have hcontains : row.contains column = row'.contains column :=
    decide_eq_decide.2 (h.map Prod.fst).mem_iff
  rw [Reordered, entries_stampColumn, entries_stampColumn, next_stampColumn, next_stampColumn,
    hcontains]
  exact ⟨h.append_right _, rfl⟩

theorem forall₂_stampFrom {rows rows' : List Row} (h : List.Forall₂ Reordered rows rows')
    (c u : Nat) :
    List.Forall₂ Reordered (stampFrom options c u rows) (stampFrom options c u rows') := by
  induction h generalizing c u with
  | nil => exact .nil
  | cons hrow hrows ih =>
    obtain ⟨hcreated, hc⟩ := hrow.stampColumn options.ctimeField options.ctimeStamp c
    obtain ⟨hupdated, hu⟩ := hcreated.stampColumn options.utimeField options.utimeStamp u
    rw [stampFrom, stampFrom, ← hc, ← hu]
    exact .cons hupdated (ih _ _)

theorem forall₂_stamped {first : Row} {others others' : List Row}
    (h : List.Forall₂ Reordered others others') :
    ∃ head rest rest', stamped options (first :: others) = head :: rest ∧
      stamped options (first :: others') = head :: rest' ∧ List.Forall₂ Reordered rest rest' := by
  rw [stamped, stamped]
  split
  · exact ⟨_, _, _, rfl, rfl, forall₂_stampFrom h _ _⟩
  · exact ⟨_, _, _, rfl, rfl, h⟩

theorem Reordered.align? {row row' : Row} (h : Reordered row row') (columns : List String) :
    align? columns row = align? columns row' := by
  rw [Insertion.align?, Insertion.align?, Keyed.get?_of_perm h, Keyed.size, Keyed.size, h.length_eq]

theorem alignFrom_of_reordered {rows rows' : List Row} (h : List.Forall₂ Reordered rows rows')
    (columns : List String) (number : Nat) :
    alignFrom columns number rows = alignFrom columns number rows' := by
  induction h generalizing number with
  | nil => rfl
  | cons hrow hrows ih => rw [alignFrom, alignFrom, hrow.align?, ih]

theorem any_isEmpty_of_reordered {rows rows' : List Row}
    (h : List.Forall₂ Reordered rows rows') :
    rows.any Keyed.isEmpty = rows'.any Keyed.isEmpty := by
  induction h with
  | nil => rfl
  | cons hrow hrows ih =>
    rw [List.any_cons, List.any_cons, ih, Keyed.isEmpty, Keyed.isEmpty, hrow.isEmpty_eq]

/-- The order of the entries of any row but the first is of no account. -/
theorem fragment_of_reordered {table : String} {first : Row} {others others' : List Row}
    (h : List.Forall₂ Reordered others others') :
    fragment table options (first :: others') = fragment table options (first :: others) := by
  obtain ⟨head, rest, rest', hstamped, hstamped', hrest⟩ := forall₂_stamped h
  rw [fragment, fragment, List.any_cons, List.any_cons, any_isEmpty_of_reordered h, hstamped,
    hstamped']
  have hvalues : alignFrom head.keys 0 (head :: rest) = alignFrom head.keys 0 (head :: rest') :=
    alignFrom_of_reordered (.cons (List.Perm.refl _) hrest) _ _
  simp only [hvalues, List.length_cons, hrest.length_eq]

/-- An INSERT is refused unless there is a row, no row is empty, and every row, with the time
columns that it lacked, has the columns of the first. It then binds the table, those columns in the
order of the first row, the values of every row in that order, and what is written when a row breaks
a key; its text has one group for each row, with one placeholder for each column. The order in which
any other row than the first holds its columns does not matter. -/
theorem fragment_aligned (table : String) (options : InsertOptions) (rows : List Row) :
    ((∃ f, fragment table options rows = .ok f) ↔
      rows ≠ [] ∧ (∀ row ∈ rows, row.entries ≠ []) ∧ ∀ entries ∈ options.timed rows,
        ∀ column, column ∈ entries.map Prod.fst ↔ column ∈ options.columns rows) ∧
    (∀ f, fragment table options rows = .ok f →
      ∃ groups,
        List.Forall₂ (fun entries group => List.Forall₂
            (fun column v => entries.lookup column = some v) (options.columns rows) group)
          (options.timed rows) groups ∧
        f.params = .text table :: (options.columns rows).map .text ++ groups.flatten
          ++ options.duplicates.flatMap (fun e => [.text e.1, e.2]) ∧
        f.sql = "INSERT " ++ (if options.ignore then "IGNORE " else "") ++ "INTO ?? ("
          ++ commaSeparated (options.columns rows).length "??" ++ ") VALUES "
          ++ commaSeparated rows.length
            ("(" ++ commaSeparated (options.columns rows).length "?" ++ ")")
          ++ (if options.duplicates = [] then ""
            else " ON DUPLICATE KEY UPDATE "
              ++ commaSeparated options.duplicates.length "?? = ?")) ∧
    ∀ first others others', rows = first :: others → List.Forall₂ Reordered others others' →
      fragment table options (first :: others') = fragment table options rows := by
  refine ⟨?_, fun f h => ?_, ?_⟩
  · simp only [fragment_eq_ok_iff, ← exists_matched_iff, ← exists_forall₂_iff]
    constructor
    · rintro ⟨_, hne, hrows, groups, hgroups, -⟩
      exact ⟨hne, hrows, groups, hgroups⟩
    · rintro ⟨hne, hrows, groups, hgroups⟩
      exact ⟨_, hne, hrows, groups, hgroups, rfl⟩
  · obtain ⟨-, -, groups, hgroups, rfl⟩ := fragment_eq_ok_iff.1 h
    refine ⟨groups, hgroups.imp fun _ _ hmatched => hmatched.2, rfl, ?_⟩
    rw [assembled, ← length_timed options rows, hgroups.length_eq]
  · rintro first others others' rfl h
    exact fragment_of_reordered h

/-- Two rows that lack time columns; the second has the time of its change. -/
def sparseRows : List Row :=
  [⟨[("a", .int 1), ("b", .int 2)], by decide⟩,
   ⟨[("b", .int 4), ("utime", .int 7), ("a", .int 3)], by decide⟩]

def countingOptions : InsertOptions where
  onDuplicate := some ⟨[("a", .int 9)], by decide⟩
  timestamps := true
  ctimeStamp := .counting 100
  utimeStamp := .counting 200

theorem fragment_of_sparseRows :
    ∃ f, fragment "users" countingOptions sparseRows = .ok f ∧
      f.sql = "INSERT INTO ?? (??, ??, ??, ??) VALUES (?, ?, ?, ?), (?, ?, ?, ?) " ++
        "ON DUPLICATE KEY UPDATE ?? = ?" ∧
      f.params = [.text "users", .text "a", .text "b", .text "ctime", .text "utime",
        .int 1, .int 2, .int 100, .int 200, .int 3, .int 4, .int 101, .int 7, .text "a", .int 9] ∧
      fragment "users" countingOptions
        [⟨[("a", .int 1), ("b", .int 2)], by decide⟩,
         ⟨[("a", .int 3), ("b", .int 4), ("utime", .int 7)], by decide⟩] = .ok f := by
  obtain ⟨f, hf⟩ : ∃ f, fragment "users" countingOptions sparseRows = .ok f := ⟨_, rfl⟩
  obtain ⟨-, hok, hreordered⟩ := fragment_aligned "users" countingOptions sparseRows
  obtain ⟨groups, hgroups, hparams, hsql⟩ := hok f hf
  refine ⟨f, hf, by rw [hsql]; decide, ?_, ?_⟩
  · rw [hparams]
    rcases hgroups with _ | ⟨h₁, _ | ⟨h₂, ⟨⟩⟩⟩
    rcases h₁ with _ | ⟨⟨⟩, _ | ⟨⟨⟩, _ | ⟨⟨⟩, _ | ⟨⟨⟩, ⟨⟩⟩⟩⟩⟩
    rcases h₂ with _ | ⟨⟨⟩, _ | ⟨⟨⟩, _ | ⟨⟨⟩, _ | ⟨⟨⟩, ⟨⟩⟩⟩⟩⟩
    decide
  · rw [← hf]
    refine hreordered _ _ _ rfl (.cons ?_ .nil)
    decide

end Insertion

end Sqlwright
