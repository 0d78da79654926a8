import Sqlwright.Proofs.Alignment
import Sqlwright.Proofs.Appending

/-!
# Insertions into a described table

A table takes of a row the entries whose keys are its columns. An insertion is that of the builder
with what the table takes of the rows, and is refused before that only if no row has an entry. Each
row that loses keys by it is reported with its number and those keys, whatever becomes of the
insertion (`Table.insertRecord_known`).
-/

namespace Sqlwright

/-! ## The columns of an insertion -/

theorem InsertOptions.mem_completed {options : InsertOptions} {earlier : List Row} {row : Row}
    {column : String} (h : column ∈ (options.completed earlier row).map Prod.fst) :
    column ∈ row.keys ∨ column = options.ctimeField ∨ column = options.utimeField := by
  rw [completed, List.map_append, List.map_append, List.mem_append, List.mem_append] at h
  rcases h with (hrow | hcreation) | hchange
  · exact .inl hrow
  · split at hcreation
    · exact .inr (.inl (List.mem_singleton.1 hcreation))
    · cases hcreation
  · split at hchange
    · exact .inr (.inr (List.mem_singleton.1 hchange))
    · cases hchange

/-- A column of an insertion is a key of its first row, or a time column that is asked for. -/
theorem InsertOptions.mem_columns {options : InsertOptions} {rows : List Row} {column : String}
    (h : column ∈ options.columns rows) :
    (∃ row ∈ rows, column ∈ row.keys) ∨
      options.timestamps = true ∧ (column = options.ctimeField ∨ column = options.utimeField) := by
  cases rows with
  | nil =>
    rw [columns, timed] at h
    split at h <;> cases h
  | cons row rows =>
    rw [columns, timed] at h
    split at h
    · rename_i htimestamps
      rw [List.mapIdx_cons, List.headD_cons] at h
      rcases mem_completed h with hrow | htime
      · exact .inl ⟨row, List.mem_cons_self, hrow⟩
      · exact .inr ⟨htimestamps, htime⟩
    · exact .inl ⟨row, List.mem_cons_self, h⟩

/-- What an insertion without further calls builds. -/
theorem Builder.fragment_of_insert {b : Builder} {table : String} {rows : List Row}
    {options : InsertOptions} {q : Query}
    (h : b.build (.insert table (.ready rows) options) [] = .ok q) :
    Insertion.fragment table options rows = .ok q.statement := by
  have hstatement := Program.statement_run (p := ⟨.insert table (.ready rows) options, []⟩) h
  obtain ⟨q₀, hstart, -⟩ := Builder.build_eq_ok_iff.1 h
  obtain ⟨clauses, hclauses, -⟩ := Builder.start_eq_ok_iff.1 hstart
  have hfragments : (Start.insert table (.ready rows) options).fragments
      = clauses.map Prod.snd := by
    rw [Start.fragments, hclauses]
  simp only [Start.clauses, bind_eq_ok_iff, pure_eq_ok_iff] at hclauses
  obtain ⟨-, -, _, ⟨⟩, f, hf, rfl⟩ := hclauses
  rw [hf, hstatement, Program.fragments, hfragments]
  exact congrArg _ (Fragment.join_singleton " " f).symm

namespace Table

variable (t : Table)

/-! ## Rows -/

/-- A row as the table takes it: the entries whose keys are columns, in their order. -/
structure Takes (row taken : Row) : Prop where
  sublist : taken.entries.Sublist row.entries
  mem_iff : ∀ e, e ∈ taken.entries ↔ e ∈ row.entries ∧ e.1 ∈ t.config.columns

/-- The keys of a row that are no columns, in their order. -/
def lostKeys (row : Row) : List String :=
  row.keys.filter fun key => decide (key ∉ t.config.columns)

theorem takes_filterKeys (row : Row) : t.Takes row (row.filterKeys t.isColumn) where
  sublist := List.filter_sublist
  mem_iff := by
    intro e
    rw [Keyed.filterKeys, List.mem_filter, isColumn, decide_eq_true_eq]

variable {t}

/-- Entries in their order that are all of the entries with known keys are no others. -/
theorem Takes.eq_filterKeys {row taken : Row} (h : t.Takes row taken) :
    taken = row.filterKeys t.isColumn := by
  have hfilter := t.takes_filterKeys row
  apply Keyed.ext
  have hsublist : taken.entries.Sublist (row.filterKeys t.isColumn).entries := by
    have hall : ∀ e ∈ taken.entries, t.isColumn e.1 = true := by
      intro e he
      exact decide_eq_true ((h.mem_iff e).1 he).2
    rw [← List.filter_eq_self.2 hall]
    exact h.sublist.filter _
  have hperm : taken.entries.Perm (row.filterKeys t.isColumn).entries := by
    rw [List.perm_ext_iff_of_nodup (.of_map _ taken.nodup) (.of_map _ (Keyed.nodup _))]
    intro e
    rw [h.mem_iff, hfilter.mem_iff]
  exact hsublist.eq_of_length hperm.length_eq

theorem forall₂_takes_iff {rows taken : List Row} :
    List.Forall₂ t.Takes rows taken ↔
      taken = rows.map fun row => row.filterKeys t.isColumn := by
  constructor
  · intro h
    rw [← List.map_id taken]
    exact (map_eq_of_forall₂ (fun _ _ htakes => htakes.eq_filterKeys.symm) h).symm
  · rintro rfl
    exact List.forall₂_map_right_iff.2 (List.forall₂_same.2 fun row _ => t.takes_filterKeys row)

variable (t)

/-! ## Reports -/

/-- Only the rows that lose keys are reported, with their numbers. -/
theorem removedEvents_eq (number : Nat) (rows : List Row) :
    t.removedEvents number rows
      = ((rows.zipIdx number).filter fun e => decide (t.lostKeys e.1 ≠ [])).map fun e =>
        t.removedEvent e.2 (t.lostKeys e.1) := by
  induction rows generalizing number with
  | nil => rfl
  | cons row rows ih =>
    have hlost : (row.keys.filter fun key => !t.isColumn key) = t.lostKeys row := by
      simp only [lostKeys, isColumn, decide_not]
    rw [removedEvents, List.zipIdx_cons, List.filter_cons, ih]
    dsimp only
    rw [hlost]
    by_cases hnone : t.lostKeys row = []
    · simp [hnone]
    · simp [hnone]

/-! ## Insertions -/

variable {t}

theorem insertRecord_of_unread {input : Input (List Row)} {f : Fault}
    (h : input.resolve Insertion.read = .error f) (options : InsertOptions) :
    t.insertRecord input options = (.error (.fault f), []) := by
  rw [insertRecord, h]

theorem all_isEmpty_iff {rows : List Row} :
    rows.all Keyed.isEmpty = true ↔ ∀ row ∈ rows, row.entries = [] := by
  simp [Keyed.isEmpty]

theorem insertRecord_of_empty {input : Input (List Row)} {rows : List Row}
    (h : input.resolve Insertion.read = .ok rows) (hrows : ∀ row ∈ rows, row.entries = [])
    (options : InsertOptions) :
    t.insertRecord input options
      = (.error (.fault (.dataRequired t.config.name "Create")), []) := by
  rw [insertRecord, h]
  exact if_pos (all_isEmpty_iff.2 hrows)

theorem insertRecord_of_nonempty {input : Input (List Row)} {rows : List Row}
    (h : input.resolve Insertion.read = .ok rows) (hrows : ∃ row ∈ rows, row.entries ≠ [])
    (options : InsertOptions) :
    t.insertRecord input options
      = (t.builder.build (.insert t.config.name
            (.ready (rows.map fun row => row.filterKeys t.isColumn)) options) [],
          t.removedEvents 0 rows) := by
  have hsome : ¬rows.all Keyed.isEmpty = true := by
    rw [all_isEmpty_iff]
    intro hnone
    obtain ⟨row, hrow, hne⟩ := hrows
    exact hne (hnone row hrow)
  rw [insertRecord, h]
  exact if_neg hsome

/-- The columns of an insertion are those of the table, and the time columns. -/
theorem mem_columns_of_takes {rows taken : List Row} (h : List.Forall₂ t.Takes rows taken)
    {options : InsertOptions} {column : String} (hcolumn : column ∈ options.columns taken) :
    column ∈ t.config.columns ∨
      options.timestamps = true ∧ (column = options.ctimeField ∨ column = options.utimeField) := by
  apply (InsertOptions.mem_columns hcolumn).imp_left
  rintro ⟨row, hrow, hkey⟩
  obtain ⟨given, htakes⟩ := exists_forall₂_iff.1 ⟨rows, h.flip⟩ row hrow
  have hmem : ∀ e, e ∈ row.entries ↔ e ∈ given.entries ∧ e.1 ∈ t.config.columns := htakes.mem_iff
  obtain ⟨e, he, rfl⟩ := List.mem_map.1 hkey
  exact ((hmem e).1 he).2

/-- An insertion of rows that cannot be read, or of no row with an entry, is refused without a
report. Any other is the builder's insertion into the table of what the table takes of the rows: of
each row the entries whose keys are columns, with their values and in their order. So if it
succeeds, its columns are those of the table, and time columns if these are asked for. Whether it
succeeds or not, one warning is given for each row with keys that are no columns, in the order of
the rows, with the number of the row and those keys in their order. -/
theorem insertRecord_known (t : Table) (input : Input (List Row)) (options : InsertOptions) :
    (∀ f, input.resolve Insertion.read = .error f →
      t.insertRecord input options = (.error (.fault f), [])) ∧
    ∀ rows, input.resolve Insertion.read = .ok rows →
      ((∀ row ∈ rows, row.entries = []) →
        ∃ f : Fault, f.kind = .emptyPayload ∧
          t.insertRecord input options = (.error (.fault f), [])) ∧
      ((∃ row ∈ rows, row.entries ≠ []) →
        (∃ taken, List.Forall₂ t.Takes rows taken) ∧
        (∀ taken, List.Forall₂ t.Takes rows taken →
          (t.insertRecord input options).1
            = t.builder.build (.insert t.config.name (.ready taken) options) [] ∧
          ∀ q, (t.insertRecord input options).1 = .ok q →
            (∃ groups, q.statement
              = Insertion.assembled t.config.name options (options.columns taken) groups) ∧
            ∀ column ∈ options.columns taken, column ∈ t.config.columns ∨
              options.timestamps = true ∧
                (column = options.ctimeField ∨ column = options.utimeField)) ∧
        (t.insertRecord input options).2
          = (rows.zipIdx.filter fun e => decide (t.lostKeys e.1 ≠ [])).map fun e =>
            ⟨.warn, .tables,
              [("table", t.config.name), ("removed", ", ".intercalate (t.lostKeys e.1)),
                ("row", toString e.2),
                ("message", Fault.ofTable t.config.name
                  ("Removed unknown fields: " ++ ", ".intercalate (t.lostKeys e.1)
                    ++ " from data[" ++ toString e.2 ++ "]"))]⟩) := by
  refine ⟨fun f h => insertRecord_of_unread h options, ?_⟩
  intro rows hread
  constructor
  · intro hempty
    exact ⟨.dataRequired t.config.name "Create", rfl, insertRecord_of_empty hread hempty options⟩
  · intro hrows
    rw [insertRecord_of_nonempty hread hrows options]
    refine ⟨⟨_, forall₂_takes_iff.2 rfl⟩, ?_, t.removedEvents_eq 0 rows⟩
    intro taken htakes
    rw [← forall₂_takes_iff.1 htakes]
    refine ⟨rfl, ?_⟩
    intro q hq
    obtain ⟨-, -, groups, -, hassembled⟩ :=
      Insertion.fragment_eq_ok_iff.1 (Builder.fragment_of_insert hq)
    exact ⟨⟨groups, hassembled.symm⟩, fun column => mem_columns_of_takes htakes⟩

/-- Rows with keys that the table of users does not have, one of them a time column. -/
def strangeRows : List Row :=
  [⟨[("x", .int 1), ("id", .int 2), ("y", .int 3)], by decide⟩,
   ⟨[("id", .int 4), ("ctime", .int 5)], by decide⟩]

/-- The last row has no known key, so that nothing is left of it. -/
def strangerRows : List Row :=
  [⟨[("id", .int 1)], by decide⟩, ⟨[("x", .int 2)], by decide⟩]

/-- Time columns are added behind the known keys, and a row of which nothing is left is refused with
its loss reported. -/
theorem insertRecord_of_strangeRows :
    (∃ q, (users.insertRecord (.ready strangeRows) { timestamps := true }).1 = .ok q ∧
      q.statement.sql = "INSERT INTO ?? (??, ??, ??) VALUES (?, ?, ?), (?, ?, ?)" ∧
      "ctime" ∉ users.config.columns) ∧
    (users.insertRecord (.ready strangeRows) { timestamps := true }).2.map (·.fields.take 3)
      = [[("table", "users"), ("removed", "x, y"), ("row", "0")],
        [("table", "users"), ("removed", "ctime"), ("row", "1")]] ∧
    (users.insertRecord (.ready strangerRows) {}).1 = .error (.fault .noRows) ∧
    (users.insertRecord (.ready strangerRows) {}).2.map (·.fields.take 3)
      = [[("table", "users"), ("removed", "x"), ("row", "1")]] := by
  obtain ⟨-, hstrange⟩ := insertRecord_known users (.ready strangeRows) { timestamps := true }
  obtain ⟨-, hsome⟩ := hstrange strangeRows rfl
  obtain ⟨-, hbuild, hevents⟩ := hsome ⟨_, List.mem_cons_self, by decide⟩
  obtain ⟨hresult, -⟩ := hbuild _ (forall₂_takes_iff.2 rfl)
  obtain ⟨-, hstranger⟩ := insertRecord_known users (.ready strangerRows) {}
  obtain ⟨-, hleft⟩ := hstranger strangerRows rfl
  obtain ⟨-, hrefused, hreported⟩ := hleft ⟨_, List.mem_cons_self, by decide⟩
  obtain ⟨hfault, -⟩ := hrefused _ (forall₂_takes_iff.2 rfl)
  refine ⟨?_, ?_, ?_, ?_⟩
  · exact ⟨_, hresult.trans rfl, by decide +kernel, by decide⟩
  · rw [hevents]
    decide +kernel
  · rw [hfault]
    rfl
  · rw [hreported]
    decide +kernel

end Table

end Sqlwright
