import Sqlwright.Proofs.Alike
import Sqlwright.Proofs.Appending

/-!
# The SET list of an update

The payload of an UPDATE is read, its time column is stamped, and its primary key is taken out. What
is left keeps its order, and each column becomes one part of the SET list. So the list is the
payload's, but for the two columns that the options name (`Builder.statement_updateWith`).
-/

namespace Sqlwright

theorem requireTable_eq_ok_iff {use : Fault.TableUse} {table : String} {u : Unit} :
    requireTable use table = .ok u ↔ Text.isBlankText table = false := by
  rw [requireTable]
  cases Text.isBlankText table <;> simp

/-! ## Reading a payload -/

namespace Assignment

/-- Whether a document is an object with both markers of a change. -/
def Conflicts (d : Document) : Prop :=
  ∃ members, d = .object members ∧ Document.hasMember "increment" members = true ∧
    Document.hasMember "decrement" members = true

/-- What a document means for its column: an object with one marker is a change by the amount under
it, and any other document is a value. -/
inductive Meant : Document → Assignment → Prop where
  | increment {members : List (String × Document)} {delta : Document}
      (hi : Document.member? "increment" members = some delta)
      (hd : Document.member? "decrement" members = none) :
      Meant (.object members) (.increment (.ofDocument delta))
  | decrement {members : List (String × Document)} {delta : Document}
      (hi : Document.member? "increment" members = none)
      (hd : Document.member? "decrement" members = some delta) :
      Meant (.object members) (.decrement (.ofDocument delta))
  | object {members : List (String × Document)}
      (hi : Document.member? "increment" members = none)
      (hd : Document.member? "decrement" members = none) :
      Meant (.object members) (.set (.document (.object members)))
  | value {d : Document} (h : ∀ members, d ≠ .object members) : Meant d (.set (.ofDocument d))

theorem read_eq_ok_iff {column : String} {d : Document} {a : Assignment} :
    read column d = .ok a ↔ Meant d a := by
  constructor
  · intro h
    cases d with
    | object members =>
      rw [read] at h
      split at h
      · cases h
      · rename_i hi hd
        cases h
        exact .increment hi hd
      · rename_i hi hd
        cases h
        exact .decrement hi hd
      · rename_i hi hd
        cases h
        exact .object hi hd
    | _ => cases h; exact .value (by simp)
  · intro h
    cases h with
    | increment hi hd | decrement hi hd | object hi hd => simp only [read, hi, hd]
    | value h =>
      cases d with
      | object members => exact absurd rfl (h members)
      | _ => rfl

/-- Only two markers at once mean nothing. -/
theorem exists_meant_iff {d : Document} : (∃ a, Meant d a) ↔ ¬Conflicts d := by
  constructor
  · rintro ⟨a, ha⟩ ⟨members, rfl, hi, hd⟩
    cases ha with
    | increment _ h => simp [Document.hasMember, h] at hd
    | decrement h _ | object h _ => simp [Document.hasMember, h] at hi
    | value h => exact h members rfl
  · intro h
    cases d with
    | object members =>
      cases hi : Document.member? "increment" members with
      | none =>
        cases hd : Document.member? "decrement" members with
        | none => exact ⟨_, .object hi hd⟩
        | some delta => exact ⟨_, .decrement hi hd⟩
      | some delta =>
        cases hd : Document.member? "decrement" members with
        | none => exact ⟨_, .increment hi hd⟩
        | some other =>
          exact absurd ⟨members, rfl, by simp [Document.hasMember, hi],
            by simp [Document.hasMember, hd]⟩ h
    | _ => exact ⟨_, .value (by simp)⟩

/-- A column of a payload object, as it is read. -/
def Read (m : String × Document) (p : String × Assignment) : Prop := p.1 = m.1 ∧ Meant m.2 p.2

end Assignment

open Assignment (Conflicts Meant Read)

namespace Assignments

theorem readMembers_eq_ok_iff {members : List (String × Document)}
    {pairs : List (String × Assignment)} :
    readMembers members = .ok pairs ↔ List.Forall₂ Read members pairs := by
  induction members generalizing pairs with
  | nil => cases pairs <;> simp [readMembers]
  | cons m members ih =>
    simp only [readMembers, bind_eq_ok_iff, pure_eq_ok_iff, Assignment.read_eq_ok_iff, ih]
    constructor
    · rintro ⟨a, ha, rest, hrest, rfl⟩
      exact .cons ⟨rfl, ha⟩ hrest
    · rintro (_ | ⟨⟨hcolumn, ha⟩, hrest⟩)
      exact ⟨_, ha, _, hrest, by rw [← hcolumn]⟩

theorem read_eq_ok_iff {d : Document} {held : Assignments} :
    read d = .ok held ↔ ∃ members pairs, d = .object members ∧ List.Forall₂ Read members pairs ∧
      Keyed.ofList pairs = held := by
  cases d with
  | object members => simp [read, map_eq_ok_iff, readMembers_eq_ok_iff]
  | _ => simp [read]

end Assignments

/-- The payloads of an update. -/
inductive Payload where
  | typed (values : Assignments)
  | row (columns : Row)
  | document (d : Document)

namespace Payload

/-- The payload as the argument of a call. -/
def input : Payload → Input Assignments
  | .typed values => .ready values
  | .row columns => .ready (.ofRow columns)
  | .document d => .document d

/-- A payload can be read unless it is a document that is no object, or one with a column that is
to be raised and lowered at once. -/
def IsReadable : Payload → Prop
  | .typed _ | .row _ => True
  | .document d => ∃ members, d = .object members ∧ ∀ m ∈ members, ¬Conflicts m.2

/-- What a payload holds: of a row, every column set to its value, and of an object, every member as
it is meant. Of a repeated member the last counts, in the place of the first. -/
def Holds : Payload → Assignments → Prop
  | .typed values, held => held = values
  | .row columns, held => held.entries = columns.entries.map fun e => (e.1, .set e.2)
  | .document d, held => ∃ members pairs, d = .object members ∧
    List.Forall₂ Read members pairs ∧ Keyed.ofList pairs = held

theorem resolve_eq_ok_iff {payload : Payload} {held : Assignments} :
    payload.input.resolve Assignments.read = .ok held ↔ payload.Holds held := by
  cases payload with
  | typed values => simp [input, Input.resolve, Holds, eq_comm]
  | row columns =>
    rw [input, Input.resolve, Holds, Except.ok.injEq]
    constructor
    · rintro rfl
      rfl
    · exact fun h => Keyed.ext h.symm
  | document d => exact Assignments.read_eq_ok_iff

theorem exists_holds_iff {payload : Payload} :
    (∃ held, payload.Holds held) ↔ payload.IsReadable := by
  cases payload with
  | typed values => simp [Holds, IsReadable]
  | row columns => exact ⟨fun _ => trivial, fun _ => ⟨.ofRow columns, rfl⟩⟩
  | document d =>
    -- a column that is read on its own has a partner, whatever its name
    have hcolumn : ∀ m : String × Document, (∃ p, Read m p) ↔ ¬Conflicts m.2 := by
      intro m
      rw [← Assignment.exists_meant_iff]
      exact ⟨fun ⟨p, hp⟩ => ⟨p.2, hp.2⟩, fun ⟨a, ha⟩ => ⟨(m.1, a), rfl, ha⟩⟩
    simp only [Holds, IsReadable, ← hcolumn, ← exists_forall₂_iff]
    constructor
    · rintro ⟨_, members, pairs, hd, hpairs, -⟩
      exact ⟨members, hd, pairs, hpairs⟩
    · rintro ⟨members, hd, pairs, hpairs⟩
      exact ⟨_, members, pairs, hd, hpairs, rfl⟩

/-- The columns of an object are its members, in their order. -/
theorem Holds.members {members : List (String × Document)} {held : Assignments}
    (h : (document (.object members)).Holds held) (hn : (members.map Prod.fst).Nodup) :
    List.Forall₂ Read members held.entries := by
  obtain ⟨_, pairs, ⟨⟩, hpairs, rfl⟩ := h
  have hnames : members.map Prod.fst = pairs.map Prod.fst :=
    map_eq_of_forall₂ (fun _ _ hp => hp.1.symm) hpairs
  rw [Keyed.entries_ofList (hnames ▸ hn)]
  exact hpairs

end Payload

/-! ## The planned list -/

/-- Assignments with a column written: in its place if it is there, and else behind all others. -/
def overwrite (column : String) (a : Assignment) (entries : List (String × Assignment)) :
    List (String × Assignment) :=
  if column ∈ entries.map Prod.fst then
    entries.map fun e => if e.1 = column then (column, a) else e
  else entries ++ [(column, a)]

namespace UpdateOptions

/-- What is made of the assignments of a payload: the time column is written if it is asked for, and
then the primary key is left out. -/
def plan (options : UpdateOptions) (entries : List (String × Assignment)) :
    List (String × Assignment) :=
  (if options.timestamps then
    overwrite options.utimeField (.set (options.utimeStamp.reading 0)) entries
  else entries).filter fun e => options.primaryKey ≠ some e.1

end UpdateOptions

theorem Keyed.entries_insert (held : Assignments) (column : String) (a : Assignment) :
    (held.insert column a).entries = overwrite column a held.entries := by
  rw [overwrite]
  split
  · rename_i h
    exact put_of_mem held.nodup h a
  · rename_i h
    exact put_of_not_mem h a

namespace Assignments

theorem entries_withoutKey_stamped (options : UpdateOptions) (held : Assignments) :
    ((held.stamped options).withoutKey options).entries = options.plan held.entries := by
  have hstamped : (held.stamped options).entries = if options.timestamps then
      overwrite options.utimeField (.set (options.utimeStamp.reading 0)) held.entries
    else held.entries := by
    rw [stamped]
    split
    · exact Keyed.entries_insert held _ _
    · rfl
  rw [UpdateOptions.plan, ← hstamped, withoutKey]
  cases options.primaryKey with
  | none => simp
  | some key =>
    refine List.filter_congr fun e _ => ?_
    rw [Bool.eq_iff_iff, bne_iff_ne, decide_eq_true_iff, ne_comm, ne_eq, ne_eq, Option.some.injEq]

theorem prepare_eq_ok_iff {options : UpdateOptions} {held prepared : Assignments} :
    held.prepare options = .ok prepared ↔ held.entries ≠ [] ∧
      options.plan held.entries ≠ [] ∧ prepared.entries = options.plan held.entries := by
  rw [prepare, ← entries_withoutKey_stamped, ← Keyed.isEmpty_eq_false_iff,
    ← Keyed.isEmpty_eq_false_iff]
  generalize (held.stamped options).withoutKey options = planned
  have hentries : planned = prepared ↔ prepared.entries = planned.entries :=
    ⟨fun h => by rw [h], fun h => Keyed.ext h.symm⟩
  cases held.isEmpty <;> cases hempty : planned.isEmpty <;> simp [hempty, hentries]

/-- A column that the options do not name keeps its assignment. -/
theorem lookup_plan {options : UpdateOptions} (held : Assignments) {column : String}
    (htime : options.timestamps = true → column ≠ options.utimeField)
    (hkey : options.primaryKey ≠ some column) :
    (options.plan held.entries).lookup column = held.get? column := by
  have hstamped : (held.stamped options).get? column = held.get? column := by
    rw [stamped]
    split
    · rename_i ht
      exact Keyed.get?_insert_of_ne _ (htime ht) _
    · rfl
  rw [← entries_withoutKey_stamped, ← hstamped]
  show Keyed.get? ((held.stamped options).withoutKey options) column = _
  rw [withoutKey]
  cases hoption : options.primaryKey with
  | none => rfl
  | some key =>
    refine Keyed.get?_erase_of_ne _ fun heq => hkey ?_
    rw [hoption, heq]

end Assignments

/-! ## The statement -/

/-- The part of the SET list that a column becomes. -/
inductive SetPart : String × Assignment → Fragment → Prop where
  | set (column : String) (v : Value) : SetPart (column, .set v) ⟨"?? = ?", [.text column, v]⟩
  | increment (column : String) (delta : Value) :
      SetPart (column, .increment delta) ⟨"?? = ?? + ?", [.text column, .text column, delta]⟩
  | decrement (column : String) (delta : Value) :
      SetPart (column, .decrement delta) ⟨"?? = ?? - ?", [.text column, .text column, delta]⟩

theorem setPart_fragment (e : String × Assignment) : SetPart e (e.2.fragment e.1) := by
  obtain ⟨column, a⟩ := e
  cases a with
  | set v => exact .set column v
  | increment delta => exact .increment column delta
  | decrement delta => exact .decrement column delta

/-- The SET list of some assignments. -/
def setList (entries : List (String × Assignment)) : Fragment :=
  (Fragment.join ", " (entries.map fun e => e.2.fragment e.1)).enclose "SET " ""

/-- An UPDATE that carries its payload opens with its table and the planned list. -/
theorem Start.clauses_updateWith_eq_ok_iff {table : String} {values : Input Assignments}
    {options : UpdateOptions} {clauses : List Clause} :
    (Start.updateWith table values options).clauses = .ok clauses ↔
      Text.isBlankText table = false ∧ ∃ held, values.resolve Assignments.read = .ok held ∧
        held.entries ≠ [] ∧ options.plan held.entries ≠ [] ∧
        [(.update, ⟨"UPDATE ??", [.text table]⟩), (.set, setList (options.plan held.entries))]
          = clauses := by
  simp only [Start.clauses, bind_eq_ok_iff, pure_eq_ok_iff, requireTable_eq_ok_iff,
    Assignments.prepare_eq_ok_iff, Assignments.fragment_eq_ok_iff, Keyed.isEmpty_eq_false_iff]
  constructor
  · rintro ⟨-, htable, held, hheld, prepared, ⟨hne, hplan, hprepared⟩, set, ⟨-, rfl⟩, rfl⟩
    exact ⟨htable, held, hheld, hne, hplan, by rw [setList, ← hprepared]⟩
  · rintro ⟨htable, held, hheld, hne, hplan, rfl⟩
    have hentries := Assignments.entries_withoutKey_stamped options held
    exact ⟨(), htable, held, hheld, _, ⟨hne, hplan, hentries⟩, _, ⟨hentries ▸ hplan, rfl⟩,
      by rw [setList, ← hentries]⟩

theorem Start.fragments_of_plan {table : String} {values : Input Assignments}
    {options : UpdateOptions} {held : Assignments} {clauses : List Clause}
    (hheld : values.resolve Assignments.read = .ok held)
    (h : (Start.updateWith table values options).clauses = .ok clauses) :
    (Start.updateWith table values options).fragments
      = [⟨"UPDATE ??", [.text table]⟩, setList (options.plan held.entries)] := by
  rw [Start.fragments, h]
  obtain ⟨-, held', hheld', -, -, rfl⟩ := Start.clauses_updateWith_eq_ok_iff.1 h
  obtain rfl : held' = held := Except.ok.inj (hheld'.symm.trans hheld)
  rfl

/-- The query that an UPDATE with a payload opens. -/
theorem Builder.start_updateWith_eq_ok_iff {b : Builder} {table : String}
    {values : Input Assignments} {options : UpdateOptions} {q : Query} :
    b.start (.updateWith table values options) = .ok q ↔
      Text.isBlankText table = false ∧ ∃ held, values.resolve Assignments.read = .ok held ∧
        held.entries ≠ [] ∧ options.plan held.entries ≠ [] ∧
        ⟨.assigned, (Clauses.empty.add .update ⟨"UPDATE ??", [.text table]⟩).add .set
          (setList (options.plan held.entries)), b.executor⟩ = q := by
  rw [Builder.start_eq_ok_iff]
  simp only [Start.clauses_updateWith_eq_ok_iff]
  constructor
  · rintro ⟨_, ⟨htable, held, hheld, hne, hplan, rfl⟩, rfl⟩
    exact ⟨htable, held, hheld, hne, hplan, rfl⟩
  · rintro ⟨htable, held, hheld, hne, hplan, rfl⟩
    exact ⟨_, ⟨htable, held, hheld, hne, hplan, rfl⟩, rfl⟩

/-- An UPDATE that carries its payload is refused unless the payload can be read, holds something,
and something of it is left for the list. Its SET list is then what the options make of what the
payload holds: one part for each column, in order, with the parameters of the parts in their order.
A column that the options do not name keeps its assignment. -/
theorem Builder.statement_updateWith {b : Builder} {table : String}
    (htable : Text.isBlankText table = false) (payload : Payload) (options : UpdateOptions) :
    ((∃ q, b.start (.updateWith table payload.input options) = .ok q) ↔
      payload.IsReadable ∧ ∃ held, payload.Holds held ∧ held.entries ≠ [] ∧
        options.plan held.entries ≠ []) ∧
    (∀ q, b.start (.updateWith table payload.input options) = .ok q →
      ∃ held parts, payload.Holds held ∧
        (∀ members, payload = .document (.object members) → (members.map Prod.fst).Nodup →
          List.Forall₂ Read members held.entries) ∧
        List.Forall₂ SetPart (options.plan held.entries) parts ∧
        q.stage = .assigned ∧
        q.statement = ⟨"UPDATE ?? SET " ++ ", ".intercalate (parts.map Fragment.sql),
          .text table :: parts.flatMap Fragment.params⟩ ∧
        ∀ column, (options.timestamps = true → column ≠ options.utimeField) →
          options.primaryKey ≠ some column →
          (options.plan held.entries).lookup column = held.get? column) := by
  constructor
  · simp only [start_updateWith_eq_ok_iff, Payload.resolve_eq_ok_iff, ← Payload.exists_holds_iff]
    constructor
    · rintro ⟨_, -, held, hheld, hne, hplan, -⟩
      exact ⟨⟨held, hheld⟩, held, hheld, hne, hplan⟩
    · rintro ⟨-, held, hheld, hne, hplan⟩
      exact ⟨_, htable, held, hheld, hne, hplan, rfl⟩
  · intro q h
    obtain ⟨-, held, hheld, -, -, hq⟩ := start_updateWith_eq_ok_iff.1 h
    obtain ⟨_, hclauses, -⟩ := start_eq_ok_iff.1 h
    have hstatement := (statement_start h).2.2
    rw [Start.fragments_of_plan hheld hclauses] at hstatement
    have hholds := Payload.resolve_eq_ok_iff.1 hheld
    refine ⟨held, (options.plan held.entries).map fun e => e.2.fragment e.1, hholds, ?_, ?_,
      by rw [← hq], ?_, fun column => Assignments.lookup_plan held⟩
    · rintro members rfl
      exact hholds.members
    · rw [List.forall₂_map_right_iff, List.forall₂_same]
      exact fun e _ => setPart_fragment e
    · have hwords : "UPDATE ?? SET " = "UPDATE ??" ++ " " ++ "SET " := by decide
      rw [hstatement, Fragment.join_pair, setList, hwords]
      simp only [Fragment.sql_enclose, Fragment.sql_join, Fragment.params_enclose,
        Fragment.params_join, String.append_empty, String.append_assoc, List.singleton_append]

/-- A payload with the primary key, a change, the time column and an object without a marker. -/
def counted : Payload :=
  .document (.object [("id", .number (.int 9)), ("views", .object [("increment", .number (.int 1)),
    ("by", .text "x")]), ("utime", .number (.int 1)), ("meta", .object [])])

def countedOptions : UpdateOptions :=
  { timestamps := true, utimeStamp := .fixed (.int 100), primaryKey := some "id" }

theorem statement_of_counted :
    counted.IsReadable ∧ ∃ q,
      Builder.start {} (.updateWith "users" counted.input countedOptions) = .ok q ∧
      q.stage = .assigned ∧
      q.statement = ⟨"UPDATE ?? SET ?? = ?? + ?, ?? = ?, ?? = ?",
        [.text "users", .text "views", .text "views", .int 1, .text "utime", .int 100,
         .text "meta", .document (.object [])]⟩ := by
  obtain ⟨q, hq⟩ : ∃ q, Builder.start {} (.updateWith "users" counted.input countedOptions)
      = .ok q := ⟨_, rfl⟩
  have htable : Text.isBlankText "users" = false := by decide
  obtain ⟨hok, hstatement⟩ := Builder.statement_updateWith htable counted countedOptions
  refine ⟨(hok.1 ⟨q, hq⟩).1, q, hq, ?_⟩
  obtain ⟨held, parts, hholds, -, hparts, hstage, hs, -⟩ := hstatement q hq
  cases Payload.resolve_eq_ok_iff.2 hholds
  rcases hparts with _ | ⟨⟨⟩, _ | ⟨⟨⟩, _ | ⟨⟨⟩, ⟨⟩⟩⟩⟩
  exact ⟨hstage, hs⟩

end Sqlwright
