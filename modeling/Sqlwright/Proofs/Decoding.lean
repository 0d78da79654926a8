import Mathlib.Data.List.Nodup
import Sqlwright.Condition.Reading
import Sqlwright.Proofs.Alike

/-!
# The documents that are conditions

Two descriptions of condition documents stand beside the reader. The grammar (`IsCondition`) says
which documents are conditions at all. The meaning (`Means`) links such a document to its tree: one
entry for each member, one operator for each member of an operator object, one value for each item
of a list, each in the document's order and with the value of its document. The reader succeeds on
the documents of the grammar (`exists_readTree_iff`), and gives the tree that they mean
(`readTree_eq_ok_iff`).
-/

namespace Sqlwright

namespace Document

/-- A document that is neither a list nor an object. -/
inductive IsScalar : Document → Prop where
  | null : IsScalar .null
  | bool (b : Bool) : IsScalar (.bool b)
  | number (n : Number) : IsScalar (.number n)
  | text (s : String) : IsScalar (.text s)

/-- Induction over a document and the documents in the lists of its members, which is where the
conditions of a condition are. -/
theorem nested_induction {P : Document → Prop}
    (step : ∀ d, (∀ members, d = .object members → ∀ m ∈ members, ∀ items, m.2 = .list items →
      ∀ item ∈ items, P item) → P d)
    (d : Document) : P d := by
  refine step d fun members hd m hm items hitems item hitem => ?_
  have hsmaller : sizeOf item < sizeOf d := by
    have hitem := List.sizeOf_lt_of_mem hitem
    have hm := List.sizeOf_lt_of_mem hm
    obtain ⟨key, value⟩ := m
    obtain rfl : value = .list items := hitems
    subst hd
    simp only [Document.object.sizeOf_spec, Document.list.sizeOf_spec, Prod.mk.sizeOf_spec] at *
    omega
  exact nested_induction step item
termination_by sizeOf d

end Document

namespace Condition

open Document (member? hasMember)

/-! ## The grammar -/

/-- The keys that name no column. -/
def reservedKeys : List String := ["AND", "OR", "RAW"]

/-- The operators that take any document. -/
def plainKeys : List String :=
  ["=", "!=", "<", "<=", ">", ">=", "REGEXP", "IS_NULL", "IS_NOT_NULL"]

/-- The operators that take a list. -/
def listKeys : List String := ["IN", "NOT_IN", "BETWEEN", "NOT_BETWEEN"]

/-- The operators that take a pattern. -/
def patternKeys : List String := ["LIKE", "NOT_LIKE"]

/-- The keys of a pattern that is built from a part of the text. -/
def formKeys : List String := ["contains", "startsWith", "endsWith"]

/-- An object that holds exactly one of the forms. -/
structure HasForm (members : List (String × Document)) (key : String) (d : Document) : Prop where
  known : key ∈ formKeys
  held : member? key members = some d
  alone : ∀ other ∈ formKeys, hasMember other members = true → other = key

/-- The documents of a pattern. -/
inductive IsPattern : Document → Prop where
  | verbatim (s : String) : IsPattern (.text s)
  | text {members : List (String × Document)} {key s : String}
      (h : HasForm members key (.text s)) : IsPattern (.object members)
  | number {members : List (String × Document)} {key : String} {n : Document.Number}
      (h : HasForm members key (.number n)) : IsPattern (.object members)

/-- The members of an operator object. -/
inductive IsOperator : String → Document → Prop where
  | plain {key : String} {d : Document} (hkey : key ∈ plainKeys) : IsOperator key d
  | list {key : String} (hkey : key ∈ listKeys) (items : List Document) :
      IsOperator key (.list items)
  | pattern {key : String} {d : Document} (hkey : key ∈ patternKeys) (hd : IsPattern d) :
      IsOperator key d

/-- The documents of what is asked of a column. -/
inductive IsTest : Document → Prop where
  | scalar {d : Document} (hd : d.IsScalar) : IsTest d
  | list (items : List Document) : IsTest (.list items)
  | object {members : List (String × Document)} (h : ∀ m ∈ members, IsOperator m.1 m.2) :
      IsTest (.object members)

/-- The documents of a caller's predicate. -/
inductive IsRaw : Document → Prop where
  | text (sql : String) : IsRaw (.text sql)
  | object {members : List (String × Document)} {sql : String}
      (hsql : member? "sql" members = some (.text sql))
      (hparams : member? "params" members = none ∨ member? "params" members = some .null ∨
        ∃ items, member? "params" members = some (.list items)) : IsRaw (.object members)

mutual

/-- The documents that are conditions. -/
inductive IsCondition : Document → Prop where
  | object {members : List (String × Document)} (h : ∀ m ∈ members, IsMember m.1 m.2) :
      IsCondition (.object members)

/-- The members of a condition object. -/
inductive IsMember : String → Document → Prop where
  | group {key : String} {items : List Document} (hkey : key = "AND" ∨ key = "OR")
      (hitems : items ≠ []) (h : ∀ item ∈ items, IsCondition item) : IsMember key (.list items)
  | raw {d : Document} (hd : IsRaw d) : IsMember "RAW" d
  | column {key : String} {d : Document} (hkey : key ∉ reservedKeys) (hd : IsTest d) :
      IsMember key d

end

/-! ## The meaning of a document -/

/-- The pattern that a document means. -/
inductive Pattern.Meant : Document → Pattern → Prop where
  | verbatim (s : String) : Meant (.text s) (.verbatim s)
  | text {members : List (String × Document)} {form : String × (String → Pattern)} {s : String}
      (hform : form ∈ Pattern.forms) (h : HasForm members form.1 (.text s)) :
      Meant (.object members) (form.2 s)
  | number {members : List (String × Document)} {form : String × (String → Pattern)}
      {n : Document.Number} (hform : form ∈ Pattern.forms)
      (h : HasForm members form.1 (.number n)) : Meant (.object members) (form.2 n.text)

/-- The payload that a document means for an operator. -/
def Op.Meant (d : Document) : Op → Prop
  | .compare _ v | .regexp v | .isNull _ v => v = .ofDocument d
  | .like _ pattern => pattern.Meant d
  | .oneOf _ vs | .between _ vs => ∃ items, d = .list items ∧ vs = items.map .ofDocument

/-- The operator that a member of an operator object means. -/
def OpMeans (m : String × Document) (op : Op) : Prop := m.1 = op.key ∧ op.Meant m.2

/-- The test that a document means. -/
inductive Test.Meant : Document → Test → Prop where
  | scalar {d : Document} (hd : d.IsScalar) : Meant d (.value (.ofDocument d))
  | list (items : List Document) : Meant (.list items) (.oneOf (items.map .ofDocument))
  | object {members : List (String × Document)} {operators : List Op}
      (h : List.Forall₂ OpMeans members operators) : Meant (.object members) (.ops operators)

/-- The caller's predicate that a document means. -/
inductive RawMeans : Document → Entry → Prop where
  | text (sql : String) : RawMeans (.text sql) (.raw sql [])
  | bare {members : List (String × Document)} {sql : String}
      (hsql : member? "sql" members = some (.text sql))
      (hparams : member? "params" members = none ∨ member? "params" members = some .null) :
      RawMeans (.object members) (.raw sql [])
  | full {members : List (String × Document)} {sql : String} {items : List Document}
      (hsql : member? "sql" members = some (.text sql))
      (hparams : member? "params" members = some (.list items)) :
      RawMeans (.object members) (.raw sql (items.map .ofDocument))

mutual

/-- The tree that a document means. -/
inductive Means : Document → Tree → Prop where
  | object {members : List (String × Document)} {entries : List Entry}
      (h : List.Forall₂ EntryMeans members entries) : Means (.object members) entries

/-- The entry that a member of a condition object means. -/
inductive EntryMeans : String × Document → Entry → Prop where
  | group {c : Connective} {items : List Document} {children : List (List Entry)}
      (hitems : items ≠ []) (h : List.Forall₂ Means items children) :
      EntryMeans (c.word, .list items) (.group c children)
  | raw {d : Document} {entry : Entry} (h : RawMeans d entry) : EntryMeans ("RAW", d) entry
  | column {key : String} {d : Document} {test : Test} (hkey : key ∉ reservedKeys)
      (h : test.Meant d) : EntryMeans (key, d) (.column key test)

end

/-! ## Lists that are read item by item -/

theorem bind_cons_eq_ok_iff {α β : Type} {R : α → β → Prop} {a : α} {as : List α}
    {x : Except Fault β} {xs : Except Fault (List β)} {out : List β}
    (hx : ∀ b, x = .ok b ↔ R a b) (hxs : ∀ bs, xs = .ok bs ↔ List.Forall₂ R as bs) :
    (do let b ← x; let bs ← xs; pure (b :: bs)) = Except.ok out
      ↔ List.Forall₂ R (a :: as) out := by
  simp only [List.forall₂_cons_left_iff, bind_eq_ok_iff, pure_eq_ok_iff, hx, hxs]
  constructor
  · rintro ⟨b, hb, bs, hbs, rfl⟩
    exact ⟨b, bs, hb, hbs, rfl⟩
  · rintro ⟨b, bs, hb, hbs, rfl⟩
    exact ⟨b, hb, bs, hbs, rfl⟩

/-! ## Patterns -/

theorem exists_form {key : String} (hkey : key ∈ formKeys) :
    ∃ form ∈ Pattern.forms, form.1 = key :=
  List.mem_map.1 hkey

theorem forms_filter_eq_singleton_iff {members : List (String × Document)}
    {form : String × (String → Pattern)} :
    Pattern.forms.filter (fun other => hasMember other.1 members) = [form] ↔
      form ∈ Pattern.forms ∧ hasMember form.1 members = true ∧
        ∀ other ∈ formKeys, hasMember other members = true → other = form.1 := by
  have hkeys : (Pattern.forms.map Prod.fst).Nodup := by decide
  have hforms : Pattern.forms.Nodup := hkeys.of_map _
  rw [← List.perm_singleton, List.perm_ext_iff_of_nodup (hforms.filter _) (List.nodup_singleton _)]
  simp only [List.mem_filter, List.mem_singleton]
  constructor
  · intro h
    obtain ⟨hform, hheld⟩ := (h form).2 rfl
    refine ⟨hform, hheld, fun key hkey hother => ?_⟩
    obtain ⟨other, hmem, rfl⟩ := exists_form hkey
    rw [(h other).1 ⟨hmem, hother⟩]
  · rintro ⟨hform, hheld, halone⟩ other
    constructor
    · rintro ⟨hmem, hother⟩
      exact List.inj_on_of_nodup_map hkeys hmem hform
        (halone other.1 (List.mem_map_of_mem hmem) hother)
    · rintro rfl
      exact ⟨hform, hheld⟩

theorem HasForm.forms_filter_eq {members : List (String × Document)}
    {form : String × (String → Pattern)} {d : Document} (hform : form ∈ Pattern.forms)
    (h : HasForm members form.1 d) :
    Pattern.forms.filter (fun other => hasMember other.1 members) = [form] := by
  have hheld : hasMember form.1 members = true := by rw [hasMember, h.held, Option.isSome_some]
  exact forms_filter_eq_singleton_iff.2 ⟨hform, hheld, h.alone⟩

theorem Pattern.read_eq_ok_iff {label : String} {d : Document} {pattern : Pattern} :
    Pattern.read label d = .ok pattern ↔ pattern.Meant d := by
  constructor
  · intro h
    cases d with
    | text s =>
      cases h
      exact .verbatim s
    | object members =>
      rw [Pattern.read] at h
      split at h
      · cases h
      · rename_i form hfilter
        obtain ⟨hform, -, halone⟩ := forms_filter_eq_singleton_iff.1 hfilter
        split at h
        · rename_i s hd
          cases h
          exact .text hform ⟨List.mem_map_of_mem hform, hd, halone⟩
        · rename_i n hd
          cases h
          exact .number hform ⟨List.mem_map_of_mem hform, hd, halone⟩
        · cases h
      · cases h
    | null | bool b | number n | list items => cases h
  · intro h
    cases h with
    | verbatim s => rfl
    | text hform h | number hform h => simp only [Pattern.read, h.forms_filter_eq hform, h.held]

theorem Pattern.exists_meant_iff {d : Document} :
    (∃ pattern : Pattern, pattern.Meant d) ↔ IsPattern d := by
  constructor
  · rintro ⟨pattern, h⟩
    cases h with
    | verbatim s => exact .verbatim s
    | text hform h => exact .text h
    | number hform h => exact .number h
  · intro h
    cases h with
    | verbatim s => exact ⟨_, .verbatim s⟩
    | text h =>
      obtain ⟨form, hform, rfl⟩ := exists_form h.known
      exact ⟨_, .text hform h⟩
    | number h =>
      obtain ⟨form, hform, rfl⟩ := exists_form h.known
      exact ⟨_, .number hform h⟩

/-! ## Operators -/

theorem readValues_eq_ok_iff {label : String} {d : Document} {vs : List Value} :
    readValues label d = .ok vs ↔ ∃ items, d = .list items ∧ vs = items.map .ofDocument := by
  cases d with
  | list items => simp [readValues, eq_comm]
  | null | bool b | number n | text s | object members => simp [readValues]

theorem Op.read_eq_ok_iff {key : String} {d : Document} {op : Op} :
    Op.read key d = .ok op ↔ OpMeans (key, d) op := by
  constructor
  · intro h
    unfold Op.read at h
    split at h
    -- the sixteenth case is a key of no operator, and two groups of cases take a payload apart
    case h_16 => cases h
    case h_7 | h_8 =>
      obtain ⟨pattern, hpattern, rfl⟩ := map_eq_ok_iff.1 h
      exact ⟨rfl, Pattern.read_eq_ok_iff.1 hpattern⟩
    case h_10 | h_11 | h_12 | h_13 =>
      obtain ⟨vs, hvs, rfl⟩ := map_eq_ok_iff.1 h
      exact ⟨rfl, readValues_eq_ok_iff.1 hvs⟩
    all_goals
      cases h
      exact ⟨rfl, rfl⟩
  · rintro ⟨rfl, h⟩
    cases op with
    | compare relation v =>
      obtain rfl : v = .ofDocument d := h
      cases relation <;> rfl
    | like negated pattern =>
      cases negated <;> exact map_eq_ok_iff.2 ⟨_, Pattern.read_eq_ok_iff.2 h, rfl⟩
    | regexp v =>
      obtain rfl : v = .ofDocument d := h
      rfl
    | oneOf negated vs | between negated vs =>
      cases negated <;> exact map_eq_ok_iff.2 ⟨_, readValues_eq_ok_iff.2 h, rfl⟩
    | isNull negated v =>
      obtain rfl : v = .ofDocument d := h
      cases negated <;> rfl

theorem exists_opMeans_iff {m : String × Document} :
    (∃ op, OpMeans m op) ↔ IsOperator m.1 m.2 := by
  obtain ⟨key, d⟩ := m
  constructor
  · rintro ⟨op, rfl : key = op.key, h⟩
    cases op with
    | compare relation v =>
      exact .plain (by cases relation <;> simp [Op.key, Relation.sign, plainKeys])
    | like negated pattern =>
      have hkey : (Op.like negated pattern).key ∈ patternKeys := by
        cases negated <;> simp [Op.key, patternKeys]
      exact .pattern hkey (Pattern.exists_meant_iff.1 ⟨pattern, h⟩)
    | regexp v => exact .plain (by simp [Op.key, plainKeys])
    | oneOf negated vs | between negated vs =>
      obtain ⟨items, rfl, -⟩ := h
      exact .list (by cases negated <;> simp [Op.key, listKeys]) items
    | isNull negated v => exact .plain (by cases negated <;> simp [Op.key, plainKeys])
  · intro h
    cases h with
    | plain hkey =>
      simp only [plainKeys, List.mem_cons, List.not_mem_nil, or_false] at hkey
      rcases hkey with rfl | rfl | rfl | rfl | rfl | rfl | rfl | rfl | rfl
      · exact ⟨.compare .eq _, rfl, rfl⟩
      · exact ⟨.compare .ne _, rfl, rfl⟩
      · exact ⟨.compare .lt _, rfl, rfl⟩
      · exact ⟨.compare .le _, rfl, rfl⟩
      · exact ⟨.compare .gt _, rfl, rfl⟩
      · exact ⟨.compare .ge _, rfl, rfl⟩
      · exact ⟨.regexp _, rfl, rfl⟩
      · exact ⟨.isNull false _, rfl, rfl⟩
      · exact ⟨.isNull true _, rfl, rfl⟩
    | list hkey items =>
      simp only [listKeys, List.mem_cons, List.not_mem_nil, or_false] at hkey
      rcases hkey with rfl | rfl | rfl | rfl
      · exact ⟨.oneOf false _, rfl, items, rfl, rfl⟩
      · exact ⟨.oneOf true _, rfl, items, rfl, rfl⟩
      · exact ⟨.between false _, rfl, items, rfl, rfl⟩
      · exact ⟨.between true _, rfl, items, rfl, rfl⟩
    | pattern hkey hd =>
      obtain ⟨pattern, hpattern⟩ := Pattern.exists_meant_iff.2 hd
      simp only [patternKeys, List.mem_cons, List.not_mem_nil, or_false] at hkey
      rcases hkey with rfl | rfl
      · exact ⟨.like false pattern, rfl, hpattern⟩
      · exact ⟨.like true pattern, rfl, hpattern⟩

theorem readOps_eq_ok_iff {members : List (String × Document)} {operators : List Op} :
    readOps members = .ok operators ↔ List.Forall₂ OpMeans members operators := by
  induction members generalizing operators with
  | nil => cases operators <;> simp [readOps]
  | cons m members ih =>
    rw [readOps]
    exact bind_cons_eq_ok_iff (fun op => Op.read_eq_ok_iff) fun operators => ih

/-! ## Tests and the caller's predicates -/

theorem Test.read_eq_ok_iff {d : Document} {test : Test} :
    Test.read d = .ok test ↔ test.Meant d := by
  constructor
  · intro h
    cases d with
    | list items =>
      cases h
      exact .list items
    | object members =>
      obtain ⟨operators, hoperators, rfl⟩ := map_eq_ok_iff.1 h
      exact .object (readOps_eq_ok_iff.1 hoperators)
    | null | bool b | number n | text s =>
      cases h
      exact .scalar (by constructor)
  · intro h
    cases h with
    | scalar hd => cases hd <;> rfl
    | list items => rfl
    | object h => exact map_eq_ok_iff.2 ⟨_, readOps_eq_ok_iff.2 h, rfl⟩

theorem Test.exists_meant_iff {d : Document} : (∃ test : Test, test.Meant d) ↔ IsTest d := by
  constructor
  · rintro ⟨test, h⟩
    cases h with
    | scalar hd => exact .scalar hd
    | list items => exact .list items
    | object h =>
      refine .object fun m hm => exists_opMeans_iff.1 ?_
      exact exists_forall₂_iff.1 ⟨_, h⟩ m hm
  · intro h
    cases h with
    | scalar hd => exact ⟨_, .scalar hd⟩
    | list items => exact ⟨_, .list items⟩
    | object h =>
      obtain ⟨operators, hoperators⟩ :=
        exists_forall₂_iff.2 fun m hm => exists_opMeans_iff.2 (h m hm)
      exact ⟨_, .object hoperators⟩

theorem readRaw_eq_ok_iff {d : Document} {entry : Entry} :
    readRaw d = .ok entry ↔ RawMeans d entry := by
  constructor
  · intro h
    cases d with
    | text sql =>
      cases h
      exact .text sql
    | object members =>
      rw [readRaw] at h
      split at h
      · rename_i sql hsql
        split at h
        · rename_i hparams
          cases h
          exact .bare hsql (.inl hparams)
        · rename_i hparams
          cases h
          exact .bare hsql (.inr hparams)
        · rename_i params hparams
          obtain ⟨vs, hvs, rfl⟩ := map_eq_ok_iff.1 h
          obtain ⟨items, rfl, rfl⟩ := readValues_eq_ok_iff.1 hvs
          exact .full hsql hparams
      · cases h
    | null | bool b | number n | list items => cases h
  · intro h
    cases h with
    | text sql => rfl
    | bare hsql hparams =>
      rcases hparams with hparams | hparams <;> simp only [readRaw, hsql, hparams]
    | full hsql hparams =>
      simp only [readRaw, hsql, hparams]
      rfl

theorem exists_rawMeans_iff {d : Document} : (∃ entry, RawMeans d entry) ↔ IsRaw d := by
  constructor
  · rintro ⟨entry, h⟩
    cases h with
    | text sql => exact .text sql
    | bare hsql hparams => exact .object hsql (hparams.imp_right .inl)
    | full hsql hparams => exact .object hsql (.inr (.inr ⟨_, hparams⟩))
  · intro h
    cases h with
    | text sql => exact ⟨_, .text sql⟩
    | object hsql hparams =>
      rcases hparams with hparams | hparams | ⟨items, hparams⟩
      · exact ⟨_, .bare hsql (.inl hparams)⟩
      · exact ⟨_, .bare hsql (.inr hparams)⟩
      · exact ⟨_, .full hsql hparams⟩

/-! ## Conditions -/

theorem Connective.eq_word_of_ofKey? {key : String} {c : Connective}
    (h : Connective.ofKey? key = some c) : key = c.word := by
  unfold Connective.ofKey? at h
  split at h <;> cases h <;> rfl

theorem Connective.ofKey?_word (c : Connective) : Connective.ofKey? c.word = some c := by
  cases c <;> rfl

/-- A key opens a group, holds a caller's predicate, or names a column. -/
theorem key_cases (key : String) :
    (∃ c : Connective, key = c.word) ∨ key = "RAW" ∨ key ∉ reservedKeys := by
  by_cases hkey : key ∈ reservedKeys
  · simp only [reservedKeys, List.mem_cons, List.not_mem_nil, or_false] at hkey
    rcases hkey with rfl | rfl | rfl
    · exact .inl ⟨.and, rfl⟩
    · exact .inl ⟨.or, rfl⟩
    · exact .inr (.inl rfl)
  · exact .inr (.inr hkey)

theorem Connective.word_mem_reservedKeys (c : Connective) : c.word ∈ reservedKeys := by
  cases c <;> decide

theorem readEntry_group (c : Connective) (d : Document) :
    readEntry c.word d = match d with
      | .list items =>
        if items.isEmpty then .error (.emptyArray c.word)
        else (readChildren items).map (.group c)
      | _ => .error (.groupShape c.word) := by
  cases d <;> simp [readEntry, c.ofKey?_word]

theorem readEntry_raw (d : Document) : readEntry "RAW" d = readRaw d := by
  cases d <;> simp [readEntry, Connective.ofKey?]

theorem readEntry_column {key : String} (hkey : key ∉ reservedKeys) (d : Document) :
    readEntry key d = (Test.read d).map (.column key) := by
  have hconnective : Connective.ofKey? key = none := by
    refine Option.eq_none_iff_forall_ne_some.2 fun c hc => hkey ?_
    rw [Connective.eq_word_of_ofKey? hc]
    exact c.word_mem_reservedKeys
  have hraw : key ≠ "RAW" := fun h => hkey (h ▸ by decide)
  cases d <;> simp [readEntry, hconnective, hraw]

/-- A member is read as it means if the conditions in it are. -/
theorem readEntry_eq_ok_iff_of_children {key : String} {d : Document} {entry : Entry}
    (hchildren : ∀ items children, d = .list items →
      (readChildren items = .ok children ↔ List.Forall₂ Means items children)) :
    readEntry key d = .ok entry ↔ EntryMeans (key, d) entry := by
  constructor
  · intro h
    rcases key_cases key with ⟨c, rfl⟩ | rfl | hkey
    · rw [readEntry_group] at h
      split at h
      · rename_i items
        split at h
        · cases h
        · rename_i hitems
          obtain ⟨children, hread, rfl⟩ := map_eq_ok_iff.1 h
          exact .group (by simpa using hitems) ((hchildren items children rfl).1 hread)
      · cases h
    · rw [readEntry_raw, readRaw_eq_ok_iff] at h
      exact .raw h
    · rw [readEntry_column hkey, map_eq_ok_iff] at h
      obtain ⟨test, htest, rfl⟩ := h
      exact .column hkey (Test.read_eq_ok_iff.1 htest)
  · intro h
    cases h with
    | group hitems h =>
      rw [readEntry_group]
      simp only [List.isEmpty_eq_false_iff.2 hitems, Bool.false_eq_true, if_false]
      exact map_eq_ok_iff.2 ⟨_, (hchildren _ _ rfl).2 h, rfl⟩
    | raw h =>
      rw [readEntry_raw]
      exact readRaw_eq_ok_iff.2 h
    | column hkey h =>
      rw [readEntry_column hkey]
      exact map_eq_ok_iff.2 ⟨_, Test.read_eq_ok_iff.2 h, rfl⟩

mutual

/-- The reader gives the tree that a document means, and no other. -/
theorem readTree_eq_ok_iff {tree : Tree} : ∀ d, readTree d = .ok tree ↔ Means d tree
  | .object members => by
    rw [readTree, readEntries_eq_ok_iff members]
    refine ⟨.object, fun h => ?_⟩
    cases h with
    | object h => exact h
  | .null | .bool _ | .number _ | .text _ | .list _ => by
    refine ⟨fun h => ?_, fun h => ?_⟩ <;> cases h

theorem readEntries_eq_ok_iff {entries : List Entry} : ∀ members,
    readEntries members = .ok entries ↔ List.Forall₂ EntryMeans members entries
  | [] => by cases entries <;> simp [readEntries]
  | (key, d) :: rest => by
    rw [readEntries]
    exact bind_cons_eq_ok_iff (fun entry => readEntry_eq_ok_iff key d)
      fun entries => readEntries_eq_ok_iff rest

theorem readEntry_eq_ok_iff {entry : Entry} (key : String) : ∀ d,
    readEntry key d = .ok entry ↔ EntryMeans (key, d) entry
  | .list items => by
    refine readEntry_eq_ok_iff_of_children fun _ children h => ?_
    cases h
    exact readChildren_eq_ok_iff items
  | .null | .bool _ | .number _ | .text _ | .object _ =>
    readEntry_eq_ok_iff_of_children nofun

theorem readChildren_eq_ok_iff {children : List Tree} : ∀ items,
    readChildren items = .ok children ↔ List.Forall₂ Means items children
  | [] => by cases children <;> simp [readChildren]
  | item :: rest => by
    rw [readChildren]
    exact bind_cons_eq_ok_iff (fun tree => readTree_eq_ok_iff item)
      fun trees => readChildren_eq_ok_iff rest

end

/-- A member means an entry if it is one of the grammar, given this for the conditions in it. -/
theorem exists_entryMeans_iff_of_children {m : String × Document}
    (hchildren : ∀ items, m.2 = .list items →
      ∀ item ∈ items, (∃ tree, Means item tree) ↔ IsCondition item) :
    (∃ entry, EntryMeans m entry) ↔ IsMember m.1 m.2 := by
  obtain ⟨key, d⟩ := m
  constructor
  · rintro ⟨entry, h⟩
    cases h with
    | group hitems h =>
      rename_i c items children
      refine .group (by cases c <;> simp [Connective.word]) hitems fun item hitem => ?_
      exact (hchildren items rfl item hitem).1 (exists_forall₂_iff.1 ⟨children, h⟩ item hitem)
    | raw h => exact .raw (exists_rawMeans_iff.1 ⟨entry, h⟩)
    | column hkey h => exact .column hkey (Test.exists_meant_iff.1 ⟨_, h⟩)
  · intro h
    cases h with
    | group hkey hitems h =>
      rename_i items
      obtain ⟨children, hmeans⟩ := exists_forall₂_iff.2 fun item hitem =>
        (hchildren items rfl item hitem).2 (h item hitem)
      rcases hkey with rfl | rfl
      · exact ⟨_, .group (c := .and) hitems hmeans⟩
      · exact ⟨_, .group (c := .or) hitems hmeans⟩
    | raw hd =>
      obtain ⟨entry, hentry⟩ := exists_rawMeans_iff.2 hd
      exact ⟨entry, .raw hentry⟩
    | column hkey hd =>
      obtain ⟨test, htest⟩ := Test.exists_meant_iff.2 hd
      exact ⟨_, .column hkey htest⟩

/-- The documents of the grammar are those that mean a tree. -/
theorem exists_means_iff (d : Document) : (∃ tree, Means d tree) ↔ IsCondition d := by
  induction d using Document.nested_induction with
  | step d ih =>
    constructor
    · rintro ⟨tree, ⟨h⟩⟩
      rename_i members
      refine .object fun m hm => ?_
      rw [← exists_entryMeans_iff_of_children (ih members rfl m hm)]
      exact exists_forall₂_iff.1 ⟨tree, h⟩ m hm
    · rintro ⟨h⟩
      rename_i members
      obtain ⟨tree, htree⟩ : ∃ tree, List.Forall₂ EntryMeans members tree := by
        refine exists_forall₂_iff.2 fun m hm => ?_
        rw [exists_entryMeans_iff_of_children (ih members rfl m hm)]
        exact h m hm
      exact ⟨tree, .object htree⟩

/-- The reader succeeds on the documents of the grammar, and on no other. -/
theorem exists_readTree_iff (d : Document) :
    (∃ tree, readTree d = .ok tree) ↔ IsCondition d := by
  simp only [readTree_eq_ok_iff, exists_means_iff]

end Condition

end Sqlwright
