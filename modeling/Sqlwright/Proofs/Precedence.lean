import Sqlwright.Proofs.Meaning

/-!
# Precedence

The predicate of a condition is read as a formula over the tests that the condition means, in the
same order, and it holds wherever the condition does. The two agree however the tests turn out if
and only if no node of the condition tears an OR apart: a group is never put in parentheses of its
own, so an OR beside an AND is read with its conditions scattered over the two sides.
-/

namespace Sqlwright.Condition

open Formula

theorem forall₂_append_iff {α β : Type} {R : α → β → Prop} {as as' : List α} {bs bs' : List β}
    (h : as.length = bs.length) :
    List.Forall₂ R (as ++ as') (bs ++ bs') ↔ List.Forall₂ R as bs ∧ List.Forall₂ R as' bs' := by
  induction as generalizing bs with
  | nil =>
    obtain rfl : bs = [] := List.length_eq_zero_iff.1 h.symm
    simp
  | cons a as ih =>
    cases bs with
    | nil => cases h
    | cons b bs => simp [List.forall₂_cons, ih (Nat.succ.inj h), and_assoc]

/-! ## Parts of a node -/

/-- Parts that show formulas. `wide` says whether one of them is torn apart by an AND beside it,
`torn` whether one of them is read as another formula even when it is alone. -/
structure Spelled (ps : List Part) (qs : List (Phrase (Formula Wording)))
    (φs : List (Formula Wording)) (wide torn : Bool) : Prop where
  reads : List.Forall₂ Part.Reads ps qs
  shows : List.Forall₂ Phrase.Shows qs φs
  tight : (∀ q ∈ qs, q.isTight .and = true) ↔ wide = false
  agrees : List.Forall₂ (fun q φ => Agrees q.formula φ) qs φs ↔ torn = false

theorem Spelled.nil : Spelled [] [] [] false false where
  reads := .nil
  shows := .nil
  tight := by simp
  agrees := by simp

theorem Spelled.append {ps ps' : List Part} {qs qs' : List (Phrase (Formula Wording))}
    {φs φs' : List (Formula Wording)} {wide wide' torn torn' : Bool}
    (h : Spelled ps qs φs wide torn) (h' : Spelled ps' qs' φs' wide' torn') :
    Spelled (ps ++ ps') (qs ++ qs') (φs ++ φs') (wide || wide') (torn || torn') where
  reads := (forall₂_append_iff h.reads.length_eq).2 ⟨h.reads, h'.reads⟩
  shows := (forall₂_append_iff h.shows.length_eq).2 ⟨h.shows, h'.shows⟩
  tight := by
    rw [List.forall_mem_append, h.tight, h'.tight, Bool.or_eq_false_iff]
  agrees := by
    rw [forall₂_append_iff h.shows.length_eq, h.agrees, h'.agrees, Bool.or_eq_false_iff]

/-- A part that is read as the one formula it stands for. -/
theorem Spelled.one {p : Part} {φ : Formula Wording} (h : p.Reads (.one φ)) :
    Spelled [p] [.one φ] [φ] false false where
  reads := .cons h .nil
  shows := .cons (.one φ) .nil
  tight := by simp
  agrees := by simp [Agrees]

theorem Spelled.length_eq {ps : List Part} {qs : List (Phrase (Formula Wording))}
    {φs : List (Formula Wording)} {wide torn : Bool} (h : Spelled ps qs φs wide torn) :
    φs.length = ps.length :=
  h.shows.length_eq.symm.trans h.reads.length_eq.symm

/-- The text of joined parts: it has the tests of their formulas, holds where they do, and is read
as what they mean unless an AND tears one of them apart or one of them is torn already. -/
theorem Spelled.read_combine {c : Connective} {ps : List Part}
    {qs : List (Phrase (Formula Wording))} {φ : Formula Wording} {φs : List (Formula Wording)}
    {wide torn : Bool} (h : Spelled (spoken ps) qs (φ :: φs) wide torn) :
    ∃ ψ, read (combine c ps).sql = some ψ ∧ (Phrase.one ψ).Shows (joinAll c φ φs) ∧
      (Agrees ψ (joinAll c φ φs) ↔
        (c = .and → φs ≠ [] → wide = false) ∧ torn = false) := by
  obtain ⟨q, qs, hq, hqs, rfl⟩ := List.forall₂_cons_right_iff.1 h.shows
  have hall := hq.joinAll (c := c) hqs
  refine ⟨_, Condition.read_combine h.reads, ⟨hall.tests, hall.implies⟩, ?_⟩
  have hparts : Agrees q.formula φ ∧ List.Forall₂ (fun q ψ => Agrees q.formula ψ) qs φs
      ↔ torn = false := List.forall₂_cons.symm.trans h.agrees
  rw [Phrase.agrees_joinAll_iff hq hqs, hparts]
  refine and_congr_left fun _ => ?_
  have hnil : qs = [] ↔ φs = [] := by
    rw [← List.length_eq_zero_iff, ← List.length_eq_zero_iff, hqs.length_eq]
  cases c with
  | and =>
    rw [h.tight, hnil]
    by_cases hn : φs = [] <;> simp [hn]
  | or => simp [Phrase.isTight]

/-! ## Conditions of a group -/

/-- Conditions that show formulas; `torn` says whether one of them is read as another. -/
structure Shown (fs : List Fragment) (ψs φs : List (Formula Wording)) (torn : Bool) : Prop where
  reads : List.Forall₂ (fun f ψ => read f.sql = some ψ) fs ψs
  shows : List.Forall₂ (fun ψ φ => (Phrase.one ψ).Shows φ) ψs φs
  agrees : List.Forall₂ Agrees ψs φs ↔ torn = false

theorem Shown.append {fs fs' : List Fragment} {ψs ψs' φs φs' : List (Formula Wording)}
    {torn torn' : Bool} (h : Shown fs ψs φs torn) (h' : Shown fs' ψs' φs' torn') :
    Shown (fs ++ fs') (ψs ++ ψs') (φs ++ φs') (torn || torn') where
  reads := (forall₂_append_iff h.reads.length_eq).2 ⟨h.reads, h'.reads⟩
  shows := (forall₂_append_iff h.shows.length_eq).2 ⟨h.shows, h'.shows⟩
  agrees := by
    rw [forall₂_append_iff h.shows.length_eq, h.agrees, h'.agrees, Bool.or_eq_false_iff]

theorem Shown.length_eq {fs : List Fragment} {ψs φs : List (Formula Wording)} {torn : Bool}
    (h : Shown fs ψs φs torn) : φs.length = fs.length :=
  h.shows.length_eq.symm.trans h.reads.length_eq.symm

/-- The text of a group: parentheses keep its conditions apart from each other, but not an OR
between them from what stands beside the group. -/
theorem Shown.spelled_combineChildren {c : Connective} {fs : List Fragment}
    {ψs : List (Formula Wording)} {φ : Formula Wording} {φs : List (Formula Wording)}
    {torn : Bool} (h : Shown (fs.filter fun f => !f.isBlank) ψs (φ :: φs) torn) :
    ∃ q, Spelled [⟨combineChildren c fs, false⟩] [q] [joinAll c φ φs]
      (c == .or && decide (0 < φs.length)) torn := by
  obtain ⟨ψ, ψs, hψ, hψs, rfl⟩ := List.forall₂_cons_right_iff.1 h.shows
  have hone : List.Forall₂ Phrase.Shows (ψs.map .one) φs :=
    List.forall₂_map_left_iff.2 hψs
  have htight : ∀ q ∈ Phrase.one ψ :: ψs.map .one, q.isTight c = true := by
    intro q hq
    rcases List.mem_cons.1 hq with rfl | hq
    · exact Phrase.isTight_one ψ c
    · obtain ⟨χ, -, rfl⟩ := List.mem_map.1 hq
      exact Phrase.isTight_one χ c
  refine ⟨_, ⟨.cons (.of_phrase? (phrase?_combineChildren h.reads)) .nil,
    .cons (hψ.joinAll hone) .nil, ?_, ?_⟩⟩
  · rw [List.forall_mem_singleton, Phrase.isTight_joinAll_one, ← hψs.length_eq]
    cases c with
    | and => simp
    | or => cases ψs <;> simp
  · rw [List.forall₂_cons, Phrase.agrees_joinAll_iff hψ hone, ← h.agrees, List.forall₂_cons,
      List.forall₂_map_left_iff]
    simp [htight]

/-! ## Entries and nodes -/

theorem columnTests_eq {name : String} {test : Test} {fs : List Fragment}
    (h : columnFragments name test = .ok fs) :
    columnTests name test = fs.map fun f => .test (wording f.sql) := by
  rw [columnTests, h]

theorem sanitize_ne_empty {name : String} {test : Test} {fs : List Fragment}
    (h : columnFragments name test = .ok fs) : Name.sanitize name ≠ "" := by
  intro he
  rw [columnFragments, if_pos he] at h
  cases h

theorem spelled_fragments {fs : List Fragment}
    (h : ∀ f ∈ fs, phrase? f.sql = some (.one (.test (wording f.sql)))) :
    Spelled (fs.map (⟨·, false⟩)) (fs.map fun f => .one (.test (wording f.sql)))
      (fs.map fun f => .test (wording f.sql)) false false := by
  induction fs with
  | nil => exact .nil
  | cons f fs ih =>
    obtain ⟨hf, hfs⟩ := List.forall_mem_cons.1 h
    exact Spelled.append (.one (.of_phrase? hf)) (ih hfs)

theorem spelled_column {name : String} {test : Test} {ps : List Part}
    (h : (Entry.column name test).parts = .ok ps) (hl : isPlainColumn name = true) :
    ∃ qs, Spelled (spoken ps) qs (columnTests name test) false false := by
  rw [spoken_column h]
  obtain ⟨fs, hfs, rfl⟩ := parts_column_eq_ok_iff.1 h
  rw [columnTests_eq hfs]
  exact ⟨_, spelled_fragments fun f hf =>
    phrase?_of_asks (asks_of_columnFragments hfs f hf) (sanitize_ne_empty hfs) hl⟩

theorem read_empty : read "" = none := rfl

theorem spelled_raw {sql : String} {params : List Value} {ps : List Part}
    (h : (Entry.raw sql params).parts = .ok ps) (hl : (Entry.raw sql params).isLegible = true) :
    ∃ qs, Spelled (spoken ps) qs (read (Text.trim sql)).toList false false := by
  obtain rfl := parts_raw_eq_ok_iff.1 h
  by_cases hb : Text.isBlankText sql = true
  · have htrim := (Text.trim_eq_empty_iff sql).2 hb
    rw [htrim, read_empty]
    exact ⟨[], .nil⟩
  · have htrim : Text.trim sql ≠ "" := fun h => hb ((Text.trim_eq_empty_iff sql).1 h)
    have hsome : (read (Text.trim sql)).isSome = true := by
      simpa [Entry.isLegible, hb] using hl
    obtain ⟨φ, hφ⟩ := Option.isSome_iff_exists.1 hsome
    have hspoken : spoken [⟨⟨Text.trim sql, params⟩, true⟩]
        = [⟨⟨Text.trim sql, params⟩, true⟩] := by
      simp [spoken, Fragment.isBlank, htrim]
    rw [hφ, hspoken]
    exact ⟨_, .one (.of_read hφ)⟩

/-- A group whose conditions show formulas. -/
theorem spelled_group {c : Connective} {children : List (List Entry)} {fs : List Fragment}
    {ψs : List (Formula Wording)} {torn : Bool}
    (h : Shown (fs.filter fun f => !f.isBlank) ψs (childFormulas c children) torn)
    (hlen : (fs.filter fun f => !f.isBlank).length = (children.filter nodeRenders).length) :
    ∃ qs, Spelled (spoken [⟨combineChildren c fs, false⟩]) qs (Entry.group c children).formulas
      (Entry.group c children).isWideOr torn := by
  have hwide : (Entry.group c children).isWideOr
      = (c == .or && decide (1 < (childFormulas c children).length)) := by
    rw [h.length_eq, hlen]
    cases c <;> simp [Entry.isWideOr]
  have hblank : (combineChildren c fs).isBlank = true ↔ fs.filter (fun f => !f.isBlank) = [] :=
    isBlank_combineChildren_iff
  rw [hwide, Entry.formulas]
  cases hφ : childFormulas c children with
  | nil =>
    -- none of the conditions says anything, so the group is blank and means nothing
    rw [hφ] at h
    have hspoken : spoken [⟨combineChildren c fs, false⟩] = [] := by
      simp [spoken, hblank.2 (List.length_eq_zero_iff.1 h.length_eq.symm)]
    obtain rfl : ψs = [] := List.forall₂_nil_right_iff.1 h.shows
    have htorn : torn = false := h.agrees.1 .nil
    rw [hspoken, htorn]
    exact ⟨[], by simpa using Spelled.nil⟩
  | cons φ φs =>
    rw [hφ] at h
    have hspoken : spoken [⟨combineChildren c fs, false⟩] = [⟨combineChildren c fs, false⟩] := by
      have hne : (combineChildren c fs).isBlank = false := by
        rw [Bool.eq_false_iff, ne_eq, hblank]
        intro hnil
        rw [hnil] at h
        cases h.length_eq
      simp [spoken, hne]
    obtain ⟨q, hq⟩ := h.spelled_combineChildren
    rw [hspoken]
    exact ⟨[q], by simpa using hq⟩

/-- A node whose entries show formulas, as a condition. -/
theorem shown_node {c : Connective} {node : List Entry} {ps : List Part}
    {qs : List (Phrase (Formula Wording))}
    (h : Spelled (spoken ps) qs (nodeFormulas node) (node.any Entry.isWideOr)
      ((innerConjunctions node).any tearsOr))
    (hc : Counted (nodeFormulas node).length (node.filter Entry.renders).length
      (node.any Entry.isWideOr)) :
    ∃ ψs, Shown ([combine c ps].filter fun f => !f.isBlank) ψs (formula? c node).toList
      ((conjunctions c node).any tearsOr) := by
  have htop := any_conjoined_eq_false_iff (c := c) hc
  rw [formula?, conjunctions, List.any_append]
  cases hφ : nodeFormulas node with
  | nil =>
    -- a node that says nothing is blank, and nothing in it is torn
    rw [hφ] at h htop
    have hspoken : spoken ps = [] := List.length_eq_zero_iff.1 h.length_eq.symm
    have hblank : (combine c ps).isBlank = true := by rw [isBlank_combine, hspoken]; rfl
    obtain rfl : qs = [] := List.forall₂_nil_right_iff.1 h.shows
    have hinner : (innerConjunctions node).any tearsOr = false := h.agrees.1 .nil
    have houter : (conjoined c node).any tearsOr = false := htop.2 (by simp)
    rw [hinner, houter]
    refine ⟨[], ?_, .nil, by simp⟩
    simp [hblank]
  | cons φ φs =>
    rw [hφ] at h htop
    obtain ⟨ψ, hread, hshows, hagrees⟩ := h.read_combine (c := c)
    have hspoken : (spoken ps).isEmpty = false := by
      have hlen := h.length_eq
      cases hs : spoken ps with
      | nil => rw [hs] at hlen; cases hlen
      | cons p rest => rfl
    have hblank : (combine c ps).isBlank = false := by rw [isBlank_combine, hspoken]
    have hseveral : 1 < (φ :: φs).length ↔ φs ≠ [] := by
      cases φs <;> simp
    refine ⟨[ψ], ?_, .cons hshows .nil, ?_⟩
    · simpa [hblank] using hread
    · rw [joinAll?_cons, Option.toList_some, List.forall₂_cons, hagrees, Bool.or_eq_false_iff, htop,
        hseveral]
      simp

theorem length_childPredicates {c : Connective} {children : List (List Entry)}
    {fs : List Fragment} (h : childPredicates c children = .ok fs) :
    (fs.filter fun f => !f.isBlank).length = (children.filter nodeRenders).length := by
  induction children generalizing fs with
  | nil => cases h; rfl
  | cons child rest ih =>
    obtain ⟨ps, hp, gs, hg, rfl⟩ := childPredicates_cons_eq_ok_iff.1 h
    have hblank : (combine c ps).isBlank = !nodeRenders child := by
      rw [isBlank_combine, isEmpty_spoken_node hp]
    cases hr : nodeRenders child <;> simp [hblank, hr, ih hg]

/-- An entry adds a formula if it says something, and a wide OR adds just one. -/
theorem counted_entry {entry : Entry} {ps : List Part} (h : entry.parts = .ok ps)
    (hlen : entry.formulas.length = (spoken ps).length) :
    Counted entry.formulas.length ([entry].filter Entry.renders).length entry.isWideOr := by
  have hempty := isEmpty_spoken_entry h
  have hpos : 0 < entry.formulas.length ↔ entry.renders = true := by
    rw [hlen, List.length_pos_iff, ne_eq, ← List.isEmpty_iff, hempty]
    simp
  refine ⟨?_, ?_, ?_⟩
  · cases hr : entry.renders with
    | false => simp [hr]
    | true =>
      have hn := hpos.2 hr
      simp only [List.filter_cons, hr, List.filter_nil, if_true, List.length_singleton]
      omega
  · intro hn
    simp [hpos.1 hn]
  · intro hw
    have hone : entry.formulas.length ≤ 1 := by
      cases entry with
      | column | raw => cases hw
      | group c children =>
        rw [Entry.formulas]
        cases joinAll? c (childFormulas c children) <;> simp
    refine ⟨by simp [renders_of_isWideOr hw], ?_⟩
    omega

mutual

/-- What the text of an entry shows is what the entry means. -/
theorem spelled_entry {entry : Entry} {ps : List Part} (h : entry.parts = .ok ps)
    (hl : entry.isLegible = true) :
    ∃ qs, Spelled (spoken ps) qs entry.formulas entry.isWideOr
      (entry.conjunctions.any tearsOr) := by
  cases entry with
  | column name test =>
    rw [Entry.isLegible] at hl
    rw [Entry.formulas, Entry.conjunctions]
    exact spelled_column h hl
  | raw sql params =>
    rw [Entry.formulas, Entry.conjunctions]
    exact spelled_raw h hl
  | group c children =>
    -- the group is one part, and only its conditions say what that part shows
    obtain ⟨-, fs, hfs, rfl⟩ := parts_group_eq_ok_iff.1 h
    rw [Entry.isLegible] at hl
    obtain ⟨ψs, hψs⟩ := shown_children hfs hl
    rw [Entry.conjunctions]
    exact spelled_group hψs (length_childPredicates hfs)

theorem spelled_node {node : List Entry} {ps : List Part} (h : nodeParts node = .ok ps)
    (hl : isLegible node = true) :
    (∃ qs, Spelled (spoken ps) qs (nodeFormulas node) (node.any Entry.isWideOr)
      ((innerConjunctions node).any tearsOr)) ∧
    Counted (nodeFormulas node).length (node.filter Entry.renders).length
      (node.any Entry.isWideOr) := by
  cases node with
  | nil => cases h; exact ⟨⟨_, .nil⟩, .nil⟩
  | cons entry rest =>
    obtain ⟨qs, hq, rs, hr, rfl⟩ := nodeParts_cons_eq_ok_iff.1 h
    obtain ⟨hentry, hrest⟩ := (Bool.and_eq_true _ _).mp hl
    obtain ⟨ps, hps⟩ := spelled_entry hq hentry
    obtain ⟨⟨ps', hps'⟩, hcounted⟩ := spelled_node hr hrest
    have hone := counted_entry hq hps.length_eq
    rw [spoken_append, nodeFormulas, innerConjunctions, List.any_append, List.any_cons]
    refine ⟨⟨_, hps.append hps'⟩, ?_⟩
    have hsplit : (entry :: rest).filter Entry.renders
        = [entry].filter Entry.renders ++ rest.filter Entry.renders :=
      List.filter_append [entry] rest
    rw [hsplit, List.length_append, List.length_append]
    exact hone.add hcounted

theorem shown_children {c : Connective} {children : List (List Entry)} {fs : List Fragment}
    (h : childPredicates c children = .ok fs) (hl : allLegible children = true) :
    ∃ ψs, Shown (fs.filter fun f => !f.isBlank) ψs (childFormulas c children)
      ((childConjunctions c children).any tearsOr) := by
  cases children with
  | nil => cases h; exact ⟨[], .nil, .nil, by simp [childFormulas, childConjunctions]⟩
  | cons child rest =>
    obtain ⟨ps, hp, gs, hg, rfl⟩ := childPredicates_cons_eq_ok_iff.1 h
    obtain ⟨hchild, hrest⟩ := (Bool.and_eq_true _ _).mp hl
    obtain ⟨⟨qs, hqs⟩, hcounted⟩ := spelled_node hp hchild
    obtain ⟨ψs, hψs⟩ := shown_node (c := c) hqs hcounted
    obtain ⟨ψs', hψs'⟩ := shown_children hg hrest
    have hsplit : (combine c ps :: gs).filter (fun f => !f.isBlank)
        = [combine c ps].filter (fun f => !f.isBlank) ++ gs.filter fun f => !f.isBlank :=
      List.filter_append [combine c ps] gs
    rw [hsplit, childFormulas_cons, childConjunctions_cons, List.any_append]
    exact ⟨_, hψs.append hψs'⟩

end

/-! ## The predicate of a condition -/

/-- The predicate of a legible condition that says something. -/
theorem predicate_shown {c : Connective} {tree : Tree} {f : Fragment}
    (h : predicate c tree = .ok f) (hs : f.isBlank = false) (hl : isLegible tree = true) :
    ∃ φ ψ, read f.sql = some φ ∧ formula? c tree = some ψ ∧ (Phrase.one φ).Shows ψ ∧
      (Agrees φ ψ ↔ (conjunctions c tree).any tearsOr = false) := by
  obtain ⟨ps, hps, rfl⟩ := predicate_eq_ok_iff.1 h
  obtain ⟨⟨qs, hqs⟩, hcounted⟩ := spelled_node hps hl
  obtain ⟨ψs, hψs⟩ := shown_node (c := c) hqs hcounted
  -- the whole condition is shown like a condition of a group that has no other
  have hfilter : [combine c ps].filter (fun f => !f.isBlank) = [combine c ps] := by simp [hs]
  rw [hfilter] at hψs
  obtain ⟨φ, φs, hφ, hφs, rfl⟩ := List.forall₂_cons_left_iff.1 hψs.reads
  obtain rfl := List.forall₂_nil_left_iff.1 hφs
  obtain ⟨ψ, χs, hψ, hχs, hform⟩ := List.forall₂_cons_left_iff.1 hψs.shows
  obtain rfl := List.forall₂_nil_left_iff.1 hχs
  have hagrees := hψs.agrees
  rw [hform] at hagrees
  exact ⟨φ, ψ, hφ, Option.toList_eq_singleton_iff.1 hform, hψ, by simpa using hagrees⟩

/-- The clause of a condition asks the tests that the condition means, in the same order, and keeps
every row that passes the condition. It keeps a row that does not if and only if a node of the
condition tears an OR apart. -/
theorem predicate_keeps_more_iff {tree : Tree} {f : Fragment} (h : predicate .and tree = .ok f)
    (hs : f.sql ≠ "") (hl : isLegible tree = true) :
    ∃ φ ψ, read f.sql = some φ ∧ formula? .and tree = some ψ ∧ φ.tests = ψ.tests ∧
      (∀ truth, ψ.value truth = true → φ.value truth = true) ∧
      ((∃ truth, φ.value truth = true ∧ ψ.value truth = false) ↔
        ∃ node ∈ conjunctions .and tree, tearsOr node = true) := by
  obtain ⟨φ, ψ, hφ, hψ, hshows, hagrees⟩ :=
    predicate_shown h (by simpa [Fragment.isBlank] using hs) hl
  refine ⟨φ, ψ, hφ, hψ, hshows.tests, hshows.implies, ?_⟩
  have hkept : Implies ψ φ := hshows.implies
  rw [← hkept.not_agrees_iff, hagrees, Bool.not_eq_false, List.any_eq_true]

/-- A column beside an OR of two conditions. -/
def besideOr : Tree :=
  [.column "age" (.ops [.compare .gt (.int 18)]),
   .group .or [[.column "status" (.value (.text "active"))],
     [.column "status" (.value (.text "pending"))]]]

theorem predicate_besideOr :
    predicate .and besideOr = .ok ⟨"age > ? AND (status = ?) OR (status = ?)",
      [.int 18, .text "active", .text "pending"]⟩ := rfl

/-- The second condition of the OR stands outside the AND: whoever passes it passes the clause at
any age. -/
theorem besideOr_misread :
    ∃ f φ ψ, predicate .and besideOr = .ok f ∧ f.sql ≠ "" ∧ isLegible besideOr = true ∧
      read f.sql = some φ ∧ formula? .and besideOr = some ψ ∧
      ∃ truth, φ.value truth = true ∧ ψ.value truth = false := by
  have htorn : (conjunctions .and besideOr).any tearsOr = true := rfl
  obtain ⟨φ, ψ, hφ, hψ, hshows, hagrees⟩ := predicate_shown predicate_besideOr rfl rfl
  have hkept : Implies ψ φ := hshows.implies
  refine ⟨_, φ, ψ, predicate_besideOr, by decide, rfl, hφ, hψ, ?_⟩
  refine hkept.not_agrees_iff.1 fun ha => ?_
  rw [hagrees.1 ha] at htorn
  cases htorn

/-- The clause beside an OR keeps more than was asked for. -/
theorem besideOr_keeps_more :
    ∃ f φ ψ, predicate .and besideOr = .ok f ∧ f.sql ≠ "" ∧ isLegible besideOr = true ∧
      read f.sql = some φ ∧ formula? .and besideOr = some ψ ∧ φ.tests = ψ.tests ∧
      (∀ truth, ψ.value truth = true → φ.value truth = true) ∧
      ∃ truth, φ.value truth = true ∧ ψ.value truth = false := by
  obtain ⟨φ, ψ, hφ, hψ, htests, hkept, hmore⟩ :=
    predicate_keeps_more_iff predicate_besideOr (by decide) rfl
  exact ⟨_, φ, ψ, predicate_besideOr, by decide, rfl, hφ, hψ, htests, hkept,
    hmore.2 (List.any_eq_true.1 rfl)⟩

/-- The text of a condition is read as what the condition means, however the tests turn out, if and
only if no node joined by AND has an OR of two or more conditions beside another entry that says
something. -/
theorem predicate_agrees_iff {tree : Tree} {f : Fragment} (h : predicate .and tree = .ok f)
    (hs : f.sql ≠ "") (hl : isLegible tree = true) :
    ∃ φ ψ, read f.sql = some φ ∧ formula? .and tree = some ψ ∧ φ.tests = ψ.tests ∧
      ((∀ truth, φ.value truth = ψ.value truth) ↔
        ∀ node ∈ conjunctions .and tree, ∀ before entry after, node = before ++ entry :: after →
          entry.isWideOr = true → nodeRenders (before ++ after) = false) := by
  obtain ⟨φ, ψ, hφ, hψ, hshows, hagrees⟩ :=
    predicate_shown h (by simpa [Fragment.isBlank] using hs) hl
  refine ⟨φ, ψ, hφ, hψ, hshows.tests, hagrees.trans ?_⟩
  rw [List.any_eq_false]
  refine forall₂_congr fun node _ => ?_
  rw [tearsOr_iff]
  simp only [not_exists, not_and, Bool.not_eq_true]

/-- A column beside a caller's predicate and an AND of one condition, which is an OR. -/
def insideAnd : Tree :=
  [.column "age" (.value (.int 18)), .raw " vip OR staff " [],
   .group .and [[.group .or [[.column "a" (.value (.int 1))], [.column "b" (.value (.int 2))]]]]]

theorem predicate_insideAnd :
    predicate .and insideAnd = .ok ⟨"age = ? AND (vip OR staff) AND ((a = ?) OR (b = ?))",
      [.int 18, .int 1, .int 2]⟩ := rfl

theorem read_vip_or_staff :
    read (Text.trim " vip OR staff ")
      = some (.join .or (.test [.word "vip".toList]) (.test [.word "staff".toList])) := by
  have htrim : Text.trim " vip OR staff " = "vip OR staff" := rfl
  have hphrase : phrase? "vip OR staff"
      = some ⟨.test [.word "vip".toList], [(.or, .test [.word "staff".toList])]⟩ :=
    phrase?_eq_some_iff.2 ⟨[.word "vip".toList, .word "OR".toList, .word "staff".toList],
      [.token (.word "vip".toList), .token (.word "OR".toList), .token (.word "staff".toList)],
      rfl, rfl, rfl⟩
  rw [htrim, read, hphrase]
  rfl

/-- An OR that is a condition of an AND keeps its parentheses. -/
theorem insideAnd_agrees :
    ∃ f φ ψ, predicate .and insideAnd = .ok f ∧ f.sql ≠ "" ∧ isLegible insideAnd = true ∧
      read f.sql = some φ ∧ formula? .and insideAnd = some ψ ∧ φ.tests = ψ.tests ∧
      ∀ truth, φ.value truth = ψ.value truth := by
  have hl : isLegible insideAnd = true := by
    simp only [insideAnd, isLegible, Entry.isLegible, allLegible, read_vip_or_staff]
    rfl
  obtain ⟨φ, ψ, hφ, hψ, htests, hiff⟩ := predicate_agrees_iff predicate_insideAnd (by decide) hl
  refine ⟨_, φ, ψ, predicate_insideAnd, by decide, hl, hφ, hψ, htests, hiff.2 ?_⟩
  intro node hnode before entry after heq hwide
  by_contra hcompany
  -- a wide OR with company would tear the node, and no node is torn
  have htears : tearsOr node = true :=
    tearsOr_iff.2 ⟨before, entry, after, heq, hwide, Bool.of_not_eq_false hcompany⟩
  have hnone : (conjunctions .and insideAnd).all (fun node => !tearsOr node) = true := rfl
  simpa [htears] using List.all_eq_true.1 hnone node hnode

end Sqlwright.Condition
