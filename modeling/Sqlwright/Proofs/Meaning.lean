import Sqlwright.Proofs.Spelling

/-!
# What a condition means

A condition means a formula over the tests of its columns and of the caller's predicates: a node
joins what its entries mean by the connective around it, a group joins what its conditions mean by
its own, and what says nothing is left out. No text of a node or a group takes part in this.

A node tears an OR apart if AND joins its entries and one of them is an OR of several conditions
that has company.
-/

namespace Sqlwright.Condition

/-! ## Formulas -/

def columnTests (name : String) (test : Test) : List (Formula Wording) :=
  match columnFragments name test with
  | .ok fs => fs.map fun f => .test (wording f.sql)
  | .error _ => []

mutual

/-- What an entry adds to the meaning of its node. -/
def Entry.formulas : Entry → List (Formula Wording)
  | .column name test => columnTests name test
  | .group c children => (Formula.joinAll? c (childFormulas c children)).toList
  | .raw sql _ => (read (Text.trim sql)).toList

def nodeFormulas : List Entry → List (Formula Wording)
  | [] => []
  | entry :: rest => entry.formulas ++ nodeFormulas rest

def childFormulas (c : Connective) : List (List Entry) → List (Formula Wording)
  | [] => []
  | child :: rest => (Formula.joinAll? c (nodeFormulas child)).toList ++ childFormulas c rest

end

/-- What a condition means whose entries are joined by a connective, if it says anything. -/
def formula? (c : Connective) (tree : Tree) : Option (Formula Wording) :=
  Formula.joinAll? c (nodeFormulas tree)

theorem childFormulas_cons (c : Connective) (child : List Entry) (rest : List (List Entry)) :
    childFormulas c (child :: rest) = (formula? c child).toList ++ childFormulas c rest := by
  rw [childFormulas, formula?]

/-! ## Legible conditions -/

mutual

/-- Whether the columns of an entry are taken for names, and its caller's predicates for predicates
of tests, AND, OR and parentheses. -/
def Entry.isLegible : Entry → Bool
  | .column name _ => isPlainColumn name
  | .group _ children => allLegible children
  | .raw sql _ => Text.isBlankText sql || (read (Text.trim sql)).isSome

def isLegible : List Entry → Bool
  | [] => true
  | entry :: rest => entry.isLegible && isLegible rest

def allLegible : List (List Entry) → Bool
  | [] => true
  | child :: rest => isLegible child && allLegible rest

end

/-! ## Nodes that tear an OR apart -/

/-- Whether an entry is an OR of two or more conditions that say something. -/
def Entry.isWideOr : Entry → Bool
  | .group .or children => decide (1 < (children.filter nodeRenders).length)
  | _ => false

/-- Whether an OR of several conditions has company in a node. -/
def tearsOr (node : List Entry) : Bool :=
  node.any Entry.isWideOr && decide (1 < (node.filter Entry.renders).length)

theorem renders_of_isWideOr {entry : Entry} (h : entry.isWideOr = true) :
    entry.renders = true := by
  cases entry with
  | column | raw => cases h
  | group c children =>
    cases c with
    | and => cases h
    | or =>
      have hmany : 1 < (children.filter nodeRenders).length := of_decide_eq_true h
      have hpos : 0 < (children.filter nodeRenders).length := by omega
      obtain ⟨child, hchild⟩ := List.exists_mem_of_length_pos hpos
      rw [Entry.renders, someRender_eq_any, List.any_eq_true]
      exact ⟨child, List.mem_filter.1 hchild⟩

theorem nodeRenders_iff_length {node : List Entry} :
    nodeRenders node = true ↔ 0 < (node.filter Entry.renders).length := by
  rw [nodeRenders_eq_any, List.any_eq_true, List.length_pos_iff_exists_mem]
  simp

/-- A node tears an OR apart if the entries around the OR say something. -/
theorem tearsOr_iff {node : List Entry} :
    tearsOr node = true ↔ ∃ before entry after, node = before ++ entry :: after ∧
      entry.isWideOr = true ∧ nodeRenders (before ++ after) = true := by
  have hlength : ∀ before entry after, Entry.isWideOr entry = true →
      (1 < ((before ++ entry :: after).filter Entry.renders).length ↔
        nodeRenders (before ++ after) = true) := by
    intro before entry after hwide
    rw [nodeRenders_iff_length, List.filter_append, List.filter_append,
      List.filter_cons_of_pos (renders_of_isWideOr hwide)]
    simp only [List.length_append, List.length_cons]
    omega
  rw [tearsOr, Bool.and_eq_true, decide_eq_true_iff, List.any_eq_true]
  constructor
  · rintro ⟨⟨entry, hm, hwide⟩, hcompany⟩
    obtain ⟨before, after, rfl⟩ := List.append_of_mem hm
    exact ⟨before, entry, after, rfl, hwide, (hlength before entry after hwide).1 hcompany⟩
  · rintro ⟨before, entry, after, rfl, hwide, hcompany⟩
    exact ⟨⟨entry, by simp, hwide⟩, (hlength before entry after hwide).2 hcompany⟩

/-- A node, if its entries are joined by AND. -/
def conjoined : Connective → List Entry → List (List Entry)
  | .and, node => [node]
  | .or, _ => []

mutual

/-- The nodes within an entry whose entries are joined by AND. -/
def Entry.conjunctions : Entry → List (List Entry)
  | .column _ _ | .raw _ _ => []
  | .group c children => childConjunctions c children

/-- The nodes within the entries of a node whose entries are joined by AND. -/
def innerConjunctions : List Entry → List (List Entry)
  | [] => []
  | entry :: rest => entry.conjunctions ++ innerConjunctions rest

/-- The conditions of a group, and the nodes within them, whose entries are joined by AND. -/
def childConjunctions (c : Connective) : List (List Entry) → List (List Entry)
  | [] => []
  | child :: rest => (conjoined c child ++ innerConjunctions child) ++ childConjunctions c rest

end

/-- The nodes of a condition, itself among them, whose entries are joined by AND. -/
def conjunctions (c : Connective) (tree : Tree) : List (List Entry) :=
  conjoined c tree ++ innerConjunctions tree

theorem childConjunctions_cons (c : Connective) (child : List Entry)
    (rest : List (List Entry)) :
    childConjunctions c (child :: rest) = conjunctions c child ++ childConjunctions c rest := by
  rw [childConjunctions, conjunctions]

/-! ## Counting -/

/-- The number of formulas that entries add against the number of entries that say something:
neither is ever zero alone, and where one of the entries is a wide OR neither is ever one alone. -/
structure Counted (formulas rendering : Nat) (wide : Bool) : Prop where
  le : rendering ≤ formulas
  pos : 0 < formulas → 0 < rendering
  wide : wide = true → 0 < rendering ∧ (1 < formulas → 1 < rendering)

theorem Counted.nil : Counted 0 0 false := ⟨by omega, by omega, fun h => nomatch h⟩

theorem Counted.add {n m r s : Nat} {v w : Bool} (h : Counted n r v) (k : Counted m s w) :
    Counted (n + m) (r + s) (v || w) where
  le := Nat.add_le_add h.le k.le
  pos hp := by
    have hn := h.pos
    have hm := k.pos
    omega
  wide hw := by
    have hn := h.le
    have hm := k.le
    have hnp := h.pos
    have hmp := k.pos
    -- whichever side has the wide OR says something already; one more formula is on its own side
    -- or makes the other side say something
    rcases Bool.or_eq_true _ _ ▸ hw with hv | hv
    · obtain ⟨hr, hone⟩ := h.wide hv
      omega
    · obtain ⟨hr, hone⟩ := k.wide hv
      omega

/-- With a wide OR, several formulas are several entries. -/
theorem Counted.several_iff {n r : Nat} (h : Counted n r true) : 1 < n ↔ 1 < r := by
  have hle := h.le
  exact ⟨(h.wide rfl).2, fun hr => by omega⟩

/-- Of the nodes joined by AND, the outermost tears an OR apart if it means several formulas and has
a wide OR. -/
theorem any_conjoined_eq_false_iff {c : Connective} {node : List Entry} {n : Nat}
    (h : Counted n (node.filter Entry.renders).length (node.any Entry.isWideOr)) :
    (conjoined c node).any tearsOr = false ↔
      (c = .and → 1 < n → node.any Entry.isWideOr = false) := by
  cases c with
  | or => simp [conjoined]
  | and =>
    cases hw : node.any Entry.isWideOr with
    | false => simp [conjoined, tearsOr, hw]
    | true =>
      rw [hw] at h
      simp [conjoined, tearsOr, hw, ← h.several_iff]

end Sqlwright.Condition
