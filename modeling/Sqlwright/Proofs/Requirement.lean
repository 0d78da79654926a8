import Sqlwright.Proofs.Rendering

/-!
# What a condition has to meet

Every entry of a condition, however deep the groups around it go, brings requirements: a group needs
a condition, a column a name and operators whose payloads fit. They are listed in the order in which
the entries are written, a group before what it holds and a name before the tests of its column. The
compiler takes exactly the conditions that meet all of them, and refuses any other for the first
that is not met, with a fault of its kind, whatever comes behind it
(`Condition.predicate_requirements`).
-/

namespace Sqlwright

/-! ## Requirements -/

/-- Something that has to hold, with the kind of a refusal for it and the cause that is given. -/
structure Requirement where
  met : Prop
  kind : Fault.Kind
  fault : Fault

namespace Requirement

variable {α β : Type} {x : Except Fault α} {r s : Requirement} {rs ss : List Requirement}
  {fault : Fault}

/-- The first requirement that is not met. -/
inductive FirstUnmet : List Requirement → Requirement → Prop where
  | here {r : Requirement} {rs : List Requirement} (h : ¬r.met) : FirstUnmet (r :: rs) r
  | behind {r s : Requirement} {rs : List Requirement} (h : r.met) (hrest : FirstUnmet rs s) :
    FirstUnmet (r :: rs) s

theorem firstUnmet_append_iff :
    FirstUnmet (rs ++ ss) s ↔ FirstUnmet rs s ∨ (∀ r ∈ rs, r.met) ∧ FirstUnmet ss s := by
  induction rs with
  | nil =>
    constructor
    · intro h
      exact .inr ⟨List.forall_mem_nil _, h⟩
    · rintro (⟨⟨⟩⟩ | ⟨-, h⟩)
      exact h
  | cons r rs ih =>
    rw [List.cons_append, List.forall_mem_cons]
    constructor
    · intro h
      cases h with
      | here h => exact .inl (.here h)
      | behind h hrest =>
        rcases ih.1 hrest with hrest | ⟨hall, hss⟩
        · exact .inl (.behind h hrest)
        · exact .inr ⟨⟨h, hall⟩, hss⟩
    · rintro (h | ⟨⟨h, hall⟩, hss⟩)
      · cases h with
        | here h => exact .here h
        | behind h hrest => exact .behind h (ih.2 (.inl hrest))
      · exact .behind h (ih.2 (.inr ⟨hall, hss⟩))

/-- One of the requirements is the first that is not met, unless all are. -/
theorem forall_met_or_exists_firstUnmet (rs : List Requirement) :
    (∀ r ∈ rs, r.met) ∨ ∃ s, FirstUnmet rs s := by
  induction rs with
  | nil => exact .inl (List.forall_mem_nil _)
  | cons r rs ih =>
    by_cases hr : r.met
    · rcases ih with hall | ⟨s, hrest⟩
      · exact .inl (List.forall_mem_cons.2 ⟨hr, hall⟩)
      · exact .inr ⟨s, .behind hr hrest⟩
    · exact .inr ⟨r, .here hr⟩

theorem FirstUnmet.mem (h : FirstUnmet rs s) : s ∈ rs := by
  induction h with
  | here h => exact List.mem_cons_self
  | behind h hrest ih => exact List.mem_cons_of_mem _ ih

/-- A computation that succeeds if its requirements are met, and else fails for the first that is
not. -/
structure Checks (x : Except Fault α) (rs : List Requirement) : Prop where
  succeeds : (∀ r ∈ rs, r.met) → ∃ a, x = .ok a
  fails : ∀ s, FirstUnmet rs s → x = .error s.fault

namespace Checks

theorem ok (a : α) : Checks (.ok a) [] where
  succeeds _ := ⟨a, rfl⟩
  fails _ := nofun

/-- A requirement that is looked at before the others. -/
theorem cons (hmet : r.met → Checks x rs) (hunmet : ¬r.met → x = .error r.fault) :
    Checks x (r :: rs) where
  succeeds h := by
    rw [List.forall_mem_cons] at h
    exact (hmet h.1).succeeds h.2
  fails s h := by
    cases h with
    | here h => exact hunmet h
    | behind h hrest => exact (hmet h).fails s hrest

/-- A computation behind another, which only runs if that one succeeds. -/
theorem bind {f : α → Except Fault β} (hx : Checks x rs) (hf : ∀ a, Checks (f a) ss) :
    Checks (x >>= f) (rs ++ ss) where
  succeeds h := by
    rw [List.forall_mem_append] at h
    obtain ⟨a, ha⟩ := hx.succeeds h.1
    obtain ⟨b, hb⟩ := (hf a).succeeds h.2
    exact ⟨b, bind_eq_ok_iff.2 ⟨a, ha, hb⟩⟩
  fails s h := by
    rcases firstUnmet_append_iff.1 h with h | ⟨hall, h⟩
    · rw [hx.fails s h]
      rfl
    · obtain ⟨a, ha⟩ := hx.succeeds hall
      rw [ha]
      exact (hf a).fails s h

theorem map (f : α → β) (hx : Checks x rs) : Checks (x.map f) rs where
  succeeds h := by
    obtain ⟨a, ha⟩ := hx.succeeds h
    exact ⟨f a, map_eq_ok_iff.2 ⟨a, ha, rfl⟩⟩
  fails s h := by
    rw [hx.fails s h]
    rfl

/-- The computation succeeds in no other case. -/
theorem exists_ok_iff (hx : Checks x rs) : (∃ a, x = .ok a) ↔ ∀ r ∈ rs, r.met := by
  refine ⟨?_, hx.succeeds⟩
  rintro ⟨a, ha⟩
  rcases forall_met_or_exists_firstUnmet rs with hall | ⟨s, h⟩
  · exact hall
  · rw [hx.fails s h] at ha
    cases ha

/-- The computation fails for no other reason. -/
theorem eq_error_iff (hx : Checks x rs) :
    x = .error fault ↔ ∃ s, FirstUnmet rs s ∧ s.fault = fault := by
  constructor
  · intro herror
    rcases forall_met_or_exists_firstUnmet rs with hall | ⟨s, h⟩
    · obtain ⟨a, ha⟩ := hx.succeeds hall
      rw [ha] at herror
      cases herror
    · exact ⟨s, h, Except.error.inj ((hx.fails s h).symm.trans herror)⟩
  · rintro ⟨s, h, rfl⟩
    exact hx.fails s h

end Checks

end Requirement

namespace Condition

open Requirement (Checks FirstUnmet)

/-! ## The requirements of a condition -/

/-- A part of a text has to hold something. -/
def Pattern.requirements (keyword : String) : Pattern → List Requirement
  | .verbatim _ => []
  | .contains s | .startsWith s | .endsWith s => [⟨s ≠ "", .validation, .patternShape keyword⟩]

/-- What the payload of an operator has to meet. -/
def Op.requirements (op : Op) : List Requirement :=
  match op with
  | .compare _ _ => []
  | .like negated pattern => pattern.requirements (if negated then "NOT LIKE" else "LIKE")
  | .regexp v => [⟨∃ s, v = .text s ∧ s ≠ "", .validation, .regexpShape⟩]
  | .oneOf _ values => [⟨values ≠ [], .emptyArrayCondition, .emptyArray op.key⟩]
  | .between _ bounds =>
    [⟨bounds.length = 2, .invalidArity, .boundCount op.key bounds.length⟩]
  | .isNull _ flag => [⟨flag = .bool true, .validation, .flagNotTrue op.key⟩]

/-- What a test has to meet. -/
def Test.requirements : Test → List Requirement
  | .value _ => []
  | .oneOf values => [⟨values ≠ [], .emptyArrayCondition, .emptyArray "IN"⟩]
  | .ops operators => operators.flatMap Op.requirements

/-- What an entry has to meet, its conditions left aside. -/
def Entry.requirements : Entry → List Requirement
  | .column name test =>
    ⟨∃ c ∈ name.toList, c.isAlphanum = true ∨ c = '_' ∨ c = '.', .validation, .columnName name⟩
      :: test.requirements
  | .group connective children =>
    [⟨children ≠ [], .emptyArrayCondition, .emptyArray connective.word⟩]
  | .raw _ _ => []

mutual

/-- An entry and the entries of its conditions, each before those that it holds. -/
def Entry.within : Entry → List Entry
  | .column name test => [.column name test]
  | .group connective children => .group connective children :: childrenWithin children
  | .raw sql params => [.raw sql params]

/-- The entries of a condition, at any depth. -/
def within : List Entry → List Entry
  | [] => []
  | entry :: rest => entry.within ++ within rest

/-- The entries of several conditions, at any depth. -/
def childrenWithin : List (List Entry) → List Entry
  | [] => []
  | child :: rest => within child ++ childrenWithin rest

end

/-- What a condition has to meet, in the order in which it is written. -/
def requirements (tree : Tree) : List Requirement := (within tree).flatMap Entry.requirements

/-! ## The compiler looks at them in their order -/

theorem isColumnChar_iff (c : Char) :
    Name.isColumnChar c = true ↔ c.isAlphanum = true ∨ c = '_' ∨ c = '.' := by
  unfold Char.isAlphanum Char.isAlpha Char.isUpper Char.isLower Char.isDigit
  simp only [Name.isColumnChar, Name.isWordChar, Name.isLetter, Char.le_def, ge_iff_le,
    Bool.or_eq_true, Bool.and_eq_true, decide_eq_true_eq, beq_iff_eq]
  -- the same three ranges, the small letters first on one side only
  tauto

theorem sanitize_eq_empty_iff (name : String) :
    Name.sanitize name = "" ↔ ¬∃ c ∈ name.toList, c.isAlphanum = true ∨ c = '_' ∨ c = '.' := by
  rw [Name.sanitize, ← String.toList_inj, String.toList_ofList]
  simp only [← isColumnChar_iff]
  simp

theorem checks_pattern (keyword : String) (pattern : Pattern) :
    Checks (pattern.text keyword) (pattern.requirements keyword) := by
  cases pattern with
  | verbatim s => exact .ok s
  | contains s | startsWith s | endsWith s =>
    refine .cons (fun h => ?_) fun h => if_pos (Decidable.not_not.1 h)
    have hs : s ≠ "" := h
    rw [Pattern.text, if_neg hs]
    exact .ok _

theorem checks_membership (column keyword label : String) (values : List Value) :
    Checks (membership column keyword label values)
      [⟨values ≠ [], .emptyArrayCondition, .emptyArray label⟩] := by
  refine .cons (fun h => ?_) fun h => if_pos (by simpa using h)
  have hv : ¬values.isEmpty = true := by simpa using h
  rw [membership, if_neg hv]
  exact .ok _

theorem checks_op (column : String) (op : Op) : Checks (op.fragment column) op.requirements := by
  cases op with
  | compare relation v => exact .ok _
  | like negated pattern =>
    rw [Op.requirements, ← List.append_nil (pattern.requirements _)]
    exact (checks_pattern _ pattern).bind fun text => .ok _
  | regexp v =>
    refine .cons ?_ ?_
    · rintro ⟨s, rfl, hs⟩
      rw [Op.fragment, if_neg hs]
      exact .ok _
    · intro h
      cases v with
      | text s => exact if_pos (Decidable.not_not.1 fun hs => h ⟨s, rfl, hs⟩)
      | _ => rfl
  | oneOf negated values => exact checks_membership _ _ _ values
  | between negated bounds =>
    refine .cons (fun h => ?_) fun h => ?_
    · obtain ⟨low, high, rfl⟩ := List.length_eq_two.1 h
      exact .ok _
    · rcases bounds with _ | ⟨low, _ | ⟨high, _ | ⟨third, rest⟩⟩⟩
      · rfl
      · rfl
      · exact absurd rfl h
      · rfl
  | isNull negated flag =>
    refine .cons (fun h => ?_) fun h => if_neg h
    have hflag : flag = .bool true := h
    rw [Op.fragment, if_pos hflag]
    exact .ok _

theorem checks_opFragments (column : String) (operators : List Op) :
    Checks (opFragments column operators) (operators.flatMap Op.requirements) := by
  induction operators with
  | nil => exact .ok _
  | cons op operators ih =>
    rw [List.flatMap_cons, ← List.append_nil (operators.flatMap _)]
    exact (checks_op column op).bind fun f => ih.bind fun fs => .ok _

theorem checks_test (column : String) (test : Test) :
    Checks (test.fragments column) test.requirements := by
  cases test with
  | value v => exact .ok _
  | oneOf values => exact (checks_membership _ _ _ values).map _
  | ops operators => exact checks_opFragments column operators

/-- The name of a column is looked at before its tests, even if there are none. -/
theorem checks_column (name : String) (test : Test) :
    Checks (columnFragments name test) (Entry.column name test).requirements := by
  refine .cons (fun h => ?_) fun h => if_pos ((sanitize_eq_empty_iff name).2 h)
  have hname : Name.sanitize name ≠ "" := mt (sanitize_eq_empty_iff name).1 (not_not_intro h)
  rw [columnFragments, if_neg hname]
  exact checks_test _ test

mutual

theorem checks_entry (entry : Entry) :
    Checks entry.parts (entry.within.flatMap Entry.requirements) := by
  cases entry with
  | column name test =>
    rw [Entry.within, List.flatMap_singleton]
    exact (checks_column name test).map _
  | group c children =>
    rw [Entry.within, List.flatMap_cons, Entry.requirements, List.singleton_append]
    refine .cons (fun h => ?_) fun h => ?_
    · have hne : ¬children.isEmpty = true := by simpa using h
      rw [Entry.parts, if_neg hne, ← List.append_nil (List.flatMap _ _)]
      exact (checks_children c children).bind fun fs => .ok _
    · obtain rfl : children = [] := Decidable.not_not.1 h
      rfl
  | raw sql params => exact .ok _

theorem checks_node (node : List Entry) : Checks (nodeParts node) (requirements node) := by
  cases node with
  | nil => exact .ok _
  | cons entry rest =>
    rw [requirements, within, List.flatMap_append, ← List.append_nil ((within rest).flatMap _)]
    exact (checks_entry entry).bind fun ps => (checks_node rest).bind fun qs => .ok _

theorem checks_children (c : Connective) (children : List (List Entry)) :
    Checks (childPredicates c children) ((childrenWithin children).flatMap Entry.requirements) := by
  cases children with
  | nil => exact .ok _
  | cons child rest =>
    rw [childrenWithin, List.flatMap_append,
      ← List.append_nil ((childrenWithin rest).flatMap _)]
    exact (checks_node child).bind fun ps => (checks_children c rest).bind fun fs => .ok _

end

theorem checks_predicate (c : Connective) (tree : Tree) :
    Checks (predicate c tree) (requirements tree) := by
  rw [← List.append_nil (requirements tree)]
  exact (checks_node tree).bind fun parts => .ok _

/-! ## What is compiled, and what it is refused for -/

/-- The cause that is given for a part of a text has the kind of the requirement. -/
theorem Pattern.kind_of_mem {keyword : String} {pattern : Pattern} {r : Requirement}
    (h : r ∈ pattern.requirements keyword) : r.fault.kind = r.kind := by
  cases pattern with
  | verbatim s => cases h
  | contains s | startsWith s | endsWith s =>
    obtain rfl := List.mem_singleton.1 h
    rfl

theorem Op.kind_of_mem {op : Op} {r : Requirement} (h : r ∈ op.requirements) :
    r.fault.kind = r.kind := by
  cases op with
  | compare relation v => cases h
  | like negated pattern => exact Pattern.kind_of_mem h
  | regexp v | oneOf negated values | between negated bounds | isNull negated flag =>
    obtain rfl := List.mem_singleton.1 h
    rfl

theorem Test.kind_of_mem {test : Test} {r : Requirement} (h : r ∈ test.requirements) :
    r.fault.kind = r.kind := by
  cases test with
  | value v => cases h
  | oneOf values =>
    obtain rfl := List.mem_singleton.1 h
    rfl
  | ops operators =>
    obtain ⟨op, -, hr⟩ := List.mem_flatMap.1 h
    exact Op.kind_of_mem hr

theorem kind_of_mem {tree : Tree} {r : Requirement} (h : r ∈ requirements tree) :
    r.fault.kind = r.kind := by
  obtain ⟨entry, -, hr⟩ := List.mem_flatMap.1 h
  cases entry with
  | column name test =>
    rcases List.mem_cons.1 hr with rfl | hr
    · rfl
    · exact Test.kind_of_mem hr
  | group connective children =>
    obtain rfl := List.mem_singleton.1 hr
    rfl
  | raw sql params => cases hr

/-- A condition is compiled if it meets all its requirements, and in no other case. Otherwise it is
refused for the first that is not met, with the cause and the kind that belong to it. -/
theorem predicate_requirements (c : Connective) (tree : Tree) :
    ((∃ f, predicate c tree = .ok f) ↔ ∀ r ∈ requirements tree, r.met) ∧
    (∀ fault, predicate c tree = .error fault ↔
      ∃ r, FirstUnmet (requirements tree) r ∧ r.fault = fault) ∧
    ∀ r, FirstUnmet (requirements tree) r →
      ∃ fault, predicate c tree = .error fault ∧ fault.kind = r.kind := by
  have hchecks := checks_predicate c tree
  refine ⟨hchecks.exists_ok_iff, fun fault => hchecks.eq_error_iff, fun r h => ?_⟩
  exact ⟨r.fault, hchecks.fails r h, kind_of_mem h.mem⟩

/-- A range without its second bound, before a name of which nothing is kept and an empty group. -/
def halfRange : Tree :=
  [.group .or [[.column "a" (.ops [.between false [.int 1]])], [.column "?" (.ops [])]],
    .group .and []]

/-- What comes first is the range, though it lies the deepest. -/
theorem predicate_halfRange :
    FirstUnmet (requirements halfRange)
        ⟨[Value.int 1].length = 2, .invalidArity, .boundCount "BETWEEN" 1⟩ ∧
      predicate .and halfRange = .error (.boundCount "BETWEEN" 1) ∧
      ∃ fault, predicate .and halfRange = .error fault ∧ fault.kind = .invalidArity := by
  have hgroup : [[Entry.column "a" (.ops [.between false [.int 1]])],
      [.column "?" (.ops [])]] ≠ [] := nofun
  have hname : ∃ c ∈ "a".toList, c.isAlphanum = true ∨ c = '_' ∨ c = '.' :=
    ⟨'a', by simp, .inl rfl⟩
  have hrange : [Value.int 1].length ≠ 2 := nofun
  have hfirst : FirstUnmet (requirements halfRange)
      ⟨[Value.int 1].length = 2, .invalidArity, .boundCount "BETWEEN" 1⟩ :=
    .behind hgroup (.behind hname (.here hrange))
  obtain ⟨-, hcause, hkind⟩ := predicate_requirements .and halfRange
  exact ⟨hfirst, (hcause _).2 ⟨_, hfirst, rfl⟩, hkind _ hfirst⟩

end Condition

end Sqlwright
