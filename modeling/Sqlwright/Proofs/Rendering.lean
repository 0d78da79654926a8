import Mathlib.Data.List.Forall2
import Sqlwright.Condition.Predicate
import Sqlwright.Text.Blank

/-!
# What a condition says

An entry says something if it asks something of its column, holds a caller's predicate that is not
blank, or opens a group of which a condition says something. This is decided on the tree alone; the
main result is that the predicate has text in exactly these cases (`isBlank_predicate`), however
deep the groups go and however many entries say nothing.
-/

namespace Sqlwright

/-! ## Steps that may fail -/

@[simp] theorem pure_eq_ok_iff {ε α : Type} {a b : α} :
    (pure a : Except ε α) = .ok b ↔ a = b :=
  ⟨Except.ok.inj, congrArg _⟩

/-- A computation of two steps succeeds if both do. -/
theorem bind_eq_ok_iff {ε α β : Type} {x : Except ε α} {f : α → Except ε β} {b : β} :
    (x >>= f) = .ok b ↔ ∃ a, x = .ok a ∧ f a = .ok b := by
  cases x with
  | error e =>
    constructor
    · intro h
      cases h
    · rintro ⟨_, h, _⟩
      cases h
  | ok a =>
    constructor
    · exact fun h => ⟨a, rfl, h⟩
    · rintro ⟨_, h, hf⟩
      cases h
      exact hf

theorem map_eq_ok_iff {ε α β : Type} {x : Except ε α} {f : α → β} {b : β} :
    x.map f = .ok b ↔ ∃ a, x = .ok a ∧ f a = b := by
  cases x with
  | error e => simp [Except.map]
  | ok a => simp [Except.map]

/-- A computation for each element succeeds with what each of them gives. -/
theorem mapM_eq_some_iff {α β : Type} {f : α → Option β} {as : List α} {bs : List β} :
    as.mapM f = some bs ↔ List.Forall₂ (fun a b => f a = some b) as bs := by
  induction as generalizing bs with
  | nil => cases bs <;> simp
  | cons a as ih =>
    simp only [List.mapM_cons, Option.bind_eq_bind, Option.bind_eq_some_iff, Option.pure_def,
      Option.some.injEq, ih]
    constructor
    · rintro ⟨b, hb, bs, hbs, rfl⟩
      exact .cons hb hbs
    · rintro (_ | ⟨hb, hbs⟩)
      exact ⟨_, hb, _, hbs, rfl⟩

namespace Condition

/-! ## What is asked of a column -/

/-- The texts behind a column that are always the same, each with its number of values. -/
def fixedTails : List (String × Nat) :=
  [("= ?", 1), ("!= ?", 1), ("< ?", 1), ("<= ?", 1), ("> ?", 1), (">= ?", 1), ("LIKE ?", 1),
   ("NOT LIKE ?", 1), ("REGEXP ?", 1), ("BETWEEN ? AND ?", 2), ("NOT BETWEEN ? AND ?", 2),
   ("IS NULL", 0), ("IS NOT NULL", 0)]

/-- The words in front of a list of values. -/
def listWords : List String := ["IN", "NOT IN"]

/-- A fragment that asks something of a column. -/
inductive Asks (column : String) (f : Fragment) : Prop where
  | fixed (tail : String) (known : (tail, f.params.length) ∈ fixedTails)
      (sql : f.sql = column ++ " " ++ tail)
  | list (keyword : String) (known : keyword ∈ listWords) (values : f.params ≠ [])
      (sql : f.sql
        = column ++ " " ++ (keyword ++ " (" ++ commaSeparated f.params.length "?" ++ ")"))

theorem Asks.sql_ne_empty {column : String} {f : Fragment} (h : Asks column f) :
    f.sql ≠ "" := by
  cases h with
  | fixed tail _ sql => simp [sql, String.append_eq_empty_iff]
  | list keyword _ _ sql => simp [sql, String.append_eq_empty_iff]

theorem asks_of_membership {column keyword label : String} {values : List Value} {f : Fragment}
    (hk : keyword ∈ listWords) (h : membership column keyword label values = .ok f) :
    Asks column f := by
  rw [membership] at h
  split at h
  · cases h
  · rename_i hv
    cases h
    exact .list keyword hk (by simpa using hv) (by simp [String.append_assoc])

/-- A fragment with one of the fixed texts. -/
theorem Asks.of_tail {column sql : String} {params : List Value} (tail : String) (n : Nat)
    (known : (tail, n) ∈ fixedTails) (hn : params.length = n)
    (hs : sql = column ++ (" " ++ tail)) : Asks column ⟨sql, params⟩ :=
  .fixed tail (by rw [hn]; exact known) (by rw [hs, String.append_assoc])

theorem asks_of_op {column : String} {op : Op} {f : Fragment} (h : op.fragment column = .ok f) :
    Asks column f := by
  cases op with
  | compare relation v =>
    cases h
    exact .of_tail (relation.sign ++ " ?") 1 (by cases relation <;> decide) rfl
      (by simp [String.append_assoc])
  | like negated pattern =>
    rw [Op.fragment, bind_eq_ok_iff] at h
    obtain ⟨text, -, h⟩ := h
    cases h
    exact .of_tail ((if negated then "NOT LIKE" else "LIKE") ++ " ?") 1
      (by cases negated <;> decide) rfl (by simp [String.append_assoc])
  | regexp v =>
    cases v with
    | text s =>
      rw [Op.fragment] at h
      split at h
      · cases h
      · cases h
        exact .of_tail "REGEXP ?" 1 (by decide) rfl rfl
    | _ => cases h
  | oneOf negated values =>
    exact asks_of_membership (by cases negated <;> decide) h
  | between negated bounds =>
    rcases bounds with _ | ⟨low, _ | ⟨high, _ | _⟩⟩
    · cases h
    · cases h
    · cases h
      cases negated with
      | false => exact .of_tail "BETWEEN ? AND ?" 2 (by decide) rfl rfl
      | true => exact .of_tail "NOT BETWEEN ? AND ?" 2 (by decide) rfl rfl
    · cases h
  | isNull negated flag =>
    rw [Op.fragment] at h
    split at h
    · cases h
      cases negated with
      | false => exact .of_tail "IS NULL" 0 (by decide) rfl rfl
      | true => exact .of_tail "IS NOT NULL" 0 (by decide) rfl rfl
    · cases h

theorem asks_of_opFragments {column : String} {ops : List Op} {fs : List Fragment}
    (h : opFragments column ops = .ok fs) : ∀ f ∈ fs, Asks column f := by
  induction ops generalizing fs with
  | nil => cases h; simp
  | cons op ops ih =>
    simp only [opFragments, bind_eq_ok_iff, pure_eq_ok_iff] at h
    obtain ⟨f, hf, gs, hgs, rfl⟩ := h
    exact List.forall_mem_cons.2 ⟨asks_of_op hf, ih hgs⟩

/-- Every fragment of a test asks something of its column. -/
theorem asks_of_test {column : String} {test : Test} {fs : List Fragment}
    (h : test.fragments column = .ok fs) : ∀ f ∈ fs, Asks column f := by
  cases test with
  | value v =>
    cases h
    exact List.forall_mem_singleton.2 (.of_tail "= ?" 1 (by decide) rfl rfl)
  | oneOf values =>
    obtain ⟨f, hf, rfl⟩ := map_eq_ok_iff.1 h
    exact List.forall_mem_singleton.2 (asks_of_membership (by decide) hf)
  | ops ops => exact asks_of_opFragments h

theorem asks_of_columnFragments {name : String} {test : Test} {fs : List Fragment}
    (h : columnFragments name test = .ok fs) : ∀ f ∈ fs, Asks (Name.sanitize name) f := by
  rw [columnFragments] at h
  split at h
  · cases h
  · exact asks_of_test h

/-! ## Entries that say something -/

/-- Whether anything is asked of a column. -/
def Test.renders : Test → Bool
  | .value _ | .oneOf _ => true
  | .ops operators => !operators.isEmpty

mutual

/-- Whether an entry says something. -/
def Entry.renders : Entry → Bool
  | .column _ test => test.renders
  | .group _ children => someRender children
  | .raw sql _ => !Text.isBlankText sql

/-- Whether an entry of a condition says something. -/
def nodeRenders : List Entry → Bool
  | [] => false
  | entry :: rest => entry.renders || nodeRenders rest

/-- Whether one of several conditions says something. -/
def someRender : List (List Entry) → Bool
  | [] => false
  | child :: rest => nodeRenders child || someRender rest

end

theorem nodeRenders_eq_any (node : List Entry) : nodeRenders node = node.any Entry.renders := by
  induction node with
  | nil => rfl
  | cons entry rest ih => rw [nodeRenders, ih, List.any_cons]

theorem someRender_eq_any (children : List (List Entry)) :
    someRender children = children.any nodeRenders := by
  induction children with
  | nil => rfl
  | cons child rest ih => rw [someRender, ih, List.any_cons]

/-! ## The steps of the compiler -/

theorem parts_column_eq_ok_iff {name : String} {test : Test} {ps : List Part} :
    (Entry.column name test).parts = .ok ps ↔
      ∃ fs, columnFragments name test = .ok fs ∧ fs.map (⟨·, false⟩) = ps := by
  rw [Entry.parts, map_eq_ok_iff]

theorem parts_group_eq_ok_iff {c : Connective} {children : List (List Entry)}
    {ps : List Part} :
    (Entry.group c children).parts = .ok ps ↔
      children ≠ [] ∧ ∃ fs, childPredicates c children = .ok fs ∧
        [⟨combineChildren c fs, false⟩] = ps := by
  cases children with
  | nil => simp [Entry.parts]
  | cons child rest =>
    rw [Entry.parts, List.isEmpty_cons, if_neg (by simp), bind_eq_ok_iff]
    simp

theorem parts_raw_eq_ok_iff {sql : String} {params : List Value} {ps : List Part} :
    (Entry.raw sql params).parts = .ok ps ↔ [⟨⟨Text.trim sql, params⟩, true⟩] = ps := by
  simp [Entry.parts]

theorem nodeParts_cons_eq_ok_iff {entry : Entry} {rest : List Entry} {ps : List Part} :
    nodeParts (entry :: rest) = .ok ps ↔
      ∃ qs, entry.parts = .ok qs ∧ ∃ rs, nodeParts rest = .ok rs ∧ qs ++ rs = ps := by
  simp only [nodeParts, bind_eq_ok_iff, pure_eq_ok_iff]

theorem childPredicates_cons_eq_ok_iff {c : Connective} {child : List Entry}
    {rest : List (List Entry)} {fs : List Fragment} :
    childPredicates c (child :: rest) = .ok fs ↔
      ∃ ps, nodeParts child = .ok ps ∧ ∃ gs, childPredicates c rest = .ok gs ∧
        combine c ps :: gs = fs := by
  simp only [childPredicates, bind_eq_ok_iff, pure_eq_ok_iff]

theorem predicate_eq_ok_iff {c : Connective} {tree : Tree} {f : Fragment} :
    predicate c tree = .ok f ↔ ∃ ps, nodeParts tree = .ok ps ∧ combine c ps = f := by
  simp only [predicate, bind_eq_ok_iff, pure_eq_ok_iff]

/-! ## Text where something is said -/

theorem Connective.separator_ne_empty (c : Connective) : c.separator ≠ "" := by
  cases c <;> decide

theorem intercalate_eq_empty_iff {separator : String} (hs : separator ≠ "")
    {texts : List String} (ht : ∀ t ∈ texts, t ≠ "") :
    separator.intercalate texts = "" ↔ texts = [] := by
  match texts with
  | [] => simp
  | [t] => simpa using ht
  | t :: u :: rest =>
    rw [String.intercalate_cons_cons, String.append_eq_empty_iff, String.append_eq_empty_iff]
    simp [hs]

@[simp] theorem spoken_append (ps qs : List Part) :
    spoken (ps ++ qs) = spoken ps ++ spoken qs := List.filter_append ..

theorem mem_spoken_iff {p : Part} {ps : List Part} :
    p ∈ spoken ps ↔ p ∈ ps ∧ p.fragment.sql ≠ "" := by
  simp [spoken, Fragment.isBlank]

theorem Part.text_ne_empty {p : Part} (h : p.fragment.sql ≠ "") (crowded : Bool) :
    p.text crowded ≠ "" := by
  rw [Part.text]
  split
  · simp [String.append_eq_empty_iff]
  · exact h

/-- Joined parts have text if one of them does. -/
theorem isBlank_combine (c : Connective) (ps : List Part) :
    (combine c ps).isBlank = (spoken ps).isEmpty := by
  have ht : ∀ t ∈ (spoken ps).map (Part.text (decide (1 < (spoken ps).length))), t ≠ "" := by
    intro t hm
    obtain ⟨p, hp, rfl⟩ := List.mem_map.1 hm
    exact Part.text_ne_empty (mem_spoken_iff.1 hp).2 _
  rw [Bool.eq_iff_iff, Fragment.isBlank, beq_iff_eq, combine,
    intercalate_eq_empty_iff c.separator_ne_empty ht, List.map_eq_nil_iff, List.isEmpty_iff]

/-- A group has text if one of its conditions does. -/
theorem isBlank_combineChildren_iff {c : Connective} {fs : List Fragment} :
    (combineChildren c fs).isBlank = true ↔ fs.filter (fun f => !f.isBlank) = [] := by
  have ht : ∀ t ∈ (fs.filter fun f => !f.isBlank).map fun f => "(" ++ f.sql ++ ")", t ≠ "" := by
    intro t hm
    obtain ⟨f, -, rfl⟩ := List.mem_map.1 hm
    simp [String.append_eq_empty_iff]
  rw [Fragment.isBlank, beq_iff_eq, combineChildren,
    intercalate_eq_empty_iff c.separator_ne_empty ht, List.map_eq_nil_iff]

theorem isBlank_combineChildren (c : Connective) (fs : List Fragment) :
    (combineChildren c fs).isBlank = fs.all Fragment.isBlank := by
  rw [Bool.eq_iff_iff, isBlank_combineChildren_iff, List.filter_eq_nil_iff, List.all_eq_true]
  simp

theorem spoken_singleton_isEmpty (f : Fragment) (raw : Bool) :
    (spoken [⟨f, raw⟩]).isEmpty = f.isBlank := by
  cases h : f.isBlank <;> simp [spoken, h]

/-- Every part of a column entry has text. -/
theorem spoken_column {name : String} {test : Test} {ps : List Part}
    (h : (Entry.column name test).parts = .ok ps) : spoken ps = ps := by
  obtain ⟨fs, hfs, rfl⟩ := parts_column_eq_ok_iff.1 h
  refine List.filter_eq_self.2 fun p hp => ?_
  obtain ⟨f, hf, rfl⟩ := List.mem_map.1 hp
  simpa [Fragment.isBlank] using (asks_of_columnFragments hfs f hf).sql_ne_empty

theorem isEmpty_testFragments {column : String} {test : Test} {fs : List Fragment}
    (h : test.fragments column = .ok fs) : fs.isEmpty = !test.renders := by
  cases test with
  | value v => cases h; rfl
  | oneOf values =>
    obtain ⟨f, -, rfl⟩ := map_eq_ok_iff.1 h
    rfl
  | ops ops =>
    cases ops with
    | nil => cases h; rfl
    | cons op ops =>
      simp only [Test.fragments, opFragments, bind_eq_ok_iff, pure_eq_ok_iff] at h
      obtain ⟨f, -, gs, -, rfl⟩ := h
      rfl

theorem isEmpty_spoken_column {name : String} {test : Test} {ps : List Part}
    (h : (Entry.column name test).parts = .ok ps) : (spoken ps).isEmpty = !test.renders := by
  rw [spoken_column h]
  obtain ⟨fs, hfs, rfl⟩ := parts_column_eq_ok_iff.1 h
  rw [columnFragments] at hfs
  split at hfs
  · cases hfs
  · rw [List.isEmpty_map, isEmpty_testFragments hfs]

mutual

/-- An entry has parts with text if it says something. -/
theorem isEmpty_spoken_entry {entry : Entry} {ps : List Part} (h : entry.parts = .ok ps) :
    (spoken ps).isEmpty = !entry.renders := by
  cases entry with
  | column name test => exact isEmpty_spoken_column h
  | group c children =>
    obtain ⟨-, fs, hfs, rfl⟩ := parts_group_eq_ok_iff.1 h
    rw [spoken_singleton_isEmpty, isBlank_combineChildren, all_isBlank_childPredicates hfs,
      Entry.renders]
  | raw sql params =>
    obtain rfl := parts_raw_eq_ok_iff.1 h
    rw [spoken_singleton_isEmpty, Entry.renders, Bool.not_not, Bool.eq_iff_iff,
      Fragment.isBlank, beq_iff_eq, Text.trim_eq_empty_iff]

theorem isEmpty_spoken_node {node : List Entry} {ps : List Part} (h : nodeParts node = .ok ps) :
    (spoken ps).isEmpty = !nodeRenders node := by
  cases node with
  | nil => cases h; rfl
  | cons entry rest =>
    obtain ⟨qs, hq, rs, hr, rfl⟩ := nodeParts_cons_eq_ok_iff.1 h
    have happend : (spoken qs ++ spoken rs).isEmpty
        = ((spoken qs).isEmpty && (spoken rs).isEmpty) := by
      cases spoken qs <;> rfl
    rw [spoken_append, happend, isEmpty_spoken_entry hq, isEmpty_spoken_node hr, nodeRenders,
      Bool.not_or]

theorem all_isBlank_childPredicates {c : Connective} {children : List (List Entry)}
    {fs : List Fragment} (h : childPredicates c children = .ok fs) :
    fs.all Fragment.isBlank = !someRender children := by
  cases children with
  | nil => cases h; rfl
  | cons child rest =>
    obtain ⟨ps, hp, gs, hg, rfl⟩ := childPredicates_cons_eq_ok_iff.1 h
    rw [List.all_cons, isBlank_combine, isEmpty_spoken_node hp, all_isBlank_childPredicates hg,
      someRender, Bool.not_or]

end

/-- The predicate of a condition has text if an entry of the condition says something. -/
theorem isBlank_predicate {c : Connective} {tree : Tree} {f : Fragment}
    (h : predicate c tree = .ok f) : f.isBlank = !nodeRenders tree := by
  obtain ⟨ps, hps, rfl⟩ := predicate_eq_ok_iff.1 h
  rw [isBlank_combine, isEmpty_spoken_node hps]

end Condition

end Sqlwright
