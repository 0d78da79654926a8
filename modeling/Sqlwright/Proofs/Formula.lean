import Mathlib.Data.List.Forall2
import Sqlwright.Condition

/-!
# Formulas and the precedence of their connectives

A formula joins tests by AND and OR. The same test may occur many times, and a truth assignment
gives every occurrence a value of its own, so two formulas agree only if they agree however the
tests turn out. A phrase is what a text shows of a formula before precedence is applied: parts with
a connective between each two. The main results say when phrases may stand side by side: an OR at
the top of any of them tears the ANDs between them apart (`Phrase.agrees_joinAll_iff`), and then
the formula that is read is implied by the one that was meant (`Phrase.Shows.joinAll`).
-/

namespace Sqlwright.Condition

variable {α β : Type}

/-- The truth of two parts under a connective. -/
def Connective.apply : Connective → Bool → Bool → Bool
  | .and, x, y => x && y
  | .or, x, y => x || y

/-- The truth value that a connective passes over. -/
def Connective.neutral : Connective → Bool
  | .and => true
  | .or => false

@[simp] theorem Connective.apply_neutral (c : Connective) (b : Bool) :
    c.apply b c.neutral = b := by
  cases c <;> simp [apply, neutral]

@[simp] theorem Connective.neutral_apply (c : Connective) (b : Bool) :
    c.apply c.neutral b = b := by
  cases c <;> simp [apply, neutral]

@[simp] theorem Connective.apply_self (c : Connective) (b : Bool) : c.apply b b = b := by
  cases c <;> simp [apply]

theorem Connective.apply_assoc (c : Connective) (x y z : Bool) :
    c.apply (c.apply x y) z = c.apply x (c.apply y z) := by
  cases c <;> simp [apply, Bool.and_assoc, Bool.or_assoc]

/-- Tests joined by connectives. -/
inductive Formula (α : Type) where
  | test (t : α)
  | join (c : Connective) (left right : Formula α)
  deriving DecidableEq, Repr

namespace Formula

/-- The tests from left to right, each as often as it occurs. -/
def tests : Formula α → List α
  | .test t => [t]
  | .join _ φ ψ => φ.tests ++ ψ.tests

/-- The number of occurrences of tests. -/
def size (φ : Formula α) : Nat := φ.tests.length

@[simp] theorem size_join (c : Connective) (φ ψ : Formula α) :
    (join c φ ψ).size = φ.size + ψ.size := by
  simp [size, tests]

/-- The truth of a formula whose `n`th test, counted from the left and from zero, turns out as
`truth n`. -/
def value : Formula α → (Nat → Bool) → Bool
  | .test _, truth => truth 0
  | .join c φ ψ, truth => c.apply (φ.value truth) (ψ.value fun n => truth (φ.size + n))

theorem value_congr (φ : Formula α) {s t : Nat → Bool} (h : ∀ n < φ.size, s n = t n) :
    φ.value s = φ.value t := by
  induction φ generalizing s t with
  | test x => exact h 0 (by simp [size, tests])
  | join c φ ψ ihφ ihψ =>
    rw [size_join] at h
    rw [value, value, ihφ fun n hn => h n (by omega),
      ihψ fun n hn => h (φ.size + n) (by omega)]

/-- Tests that all turn out alike decide every formula over them. -/
@[simp] theorem value_const (φ : Formula α) (b : Bool) : (φ.value fun _ => b) = b := by
  induction φ with
  | test t => rfl
  | join c φ ψ ihφ ihψ => rw [value, ihφ, ihψ, Connective.apply_self]

theorem value_of_forall {φ : Formula α} {truth : Nat → Bool} {b : Bool}
    (h : ∀ n < φ.size, truth n = b) : φ.value truth = b := by
  rw [φ.value_congr (t := fun _ => b) h, value_const]

/-- One assignment for the first `n` tests, another for those behind. -/
def splice (n : Nat) (s t : Nat → Bool) : Nat → Bool :=
  fun i => if i < n then s i else t (i - n)

theorem value_join_splice (c : Connective) (φ ψ : Formula α) (s t : Nat → Bool) :
    (join c φ ψ).value (splice φ.size s t) = c.apply (φ.value s) (ψ.value t) := by
  have hφ : φ.value (splice φ.size s t) = φ.value s :=
    φ.value_congr fun n hn => by simp [splice, hn]
  have hψ : (fun n => splice φ.size s t (φ.size + n)) = t := by
    funext n
    rw [splice, if_neg (by omega), Nat.add_sub_cancel_left]
  rw [value, hφ, hψ]

theorem value_join_assoc (c : Connective) (φ ψ χ : Formula α) (truth : Nat → Bool) :
    (join c (join c φ ψ) χ).value truth = (join c φ (join c ψ χ)).value truth := by
  simp only [value, size_join, Connective.apply_assoc, Nat.add_assoc]

/-- Two formulas have the same truth however their tests turn out. -/
def Agrees (φ ψ : Formula α) : Prop := ∀ truth, φ.value truth = ψ.value truth

/-- The second formula holds whenever the first does. -/
def Implies (φ ψ : Formula α) : Prop := ∀ truth, φ.value truth = true → ψ.value truth = true

/-- A formula that follows from another differs from it exactly if it holds somewhere alone. -/
theorem Implies.not_agrees_iff {φ ψ : Formula α} (h : Implies ψ φ) :
    ¬ Agrees φ ψ ↔ ∃ truth, φ.value truth = true ∧ ψ.value truth = false := by
  constructor
  · intro hne
    obtain ⟨truth, hdiffer⟩ := not_forall.1 hne
    refine ⟨truth, ?_⟩
    cases hψ : ψ.value truth with
    | true => exact absurd ((h truth hψ).trans hψ.symm) hdiffer
    | false =>
      rw [hψ] at hdiffer
      exact ⟨Bool.of_not_eq_false hdiffer, rfl⟩
  · rintro ⟨truth, hφ, hψ⟩ ha
    rw [← ha truth, hφ] at hψ
    cases hψ

/-- Whether two joined formulas agree is decided part by part: a difference in one part shows when
the other turns out neutral. -/
theorem agrees_join_join_iff {c : Connective} {φ φ' ψ ψ' : Formula α} (h : φ.size = φ'.size) :
    Agrees (join c φ ψ) (join c φ' ψ') ↔ Agrees φ φ' ∧ Agrees ψ ψ' := by
  constructor
  · intro hj
    have key : ∀ s t, c.apply (φ.value s) (ψ.value t) = c.apply (φ'.value s) (ψ'.value t) := by
      intro s t
      rw [← value_join_splice, ← value_join_splice, ← h]
      exact hj _
    refine ⟨fun s => ?_, fun t => ?_⟩
    · simpa using key s fun _ => c.neutral
    · simpa using key (fun _ => c.neutral) t
  · rintro ⟨hφ, hψ⟩ truth
    rw [value, value, hφ, hψ, h]

/-- Several formulas under one connective. -/
def joinAll (c : Connective) (φ : Formula α) (φs : List (Formula α)) : Formula α :=
  φs.foldl (join c) φ

/-- Several formulas under one connective, if there is one at all. -/
def joinAll? (c : Connective) : List (Formula α) → Option (Formula α)
  | [] => none
  | φ :: φs => some (joinAll c φ φs)

@[simp] theorem joinAll?_nil (c : Connective) :
    joinAll? c ([] : List (Formula α)) = none := rfl

@[simp] theorem joinAll?_cons (c : Connective) (φ : Formula α) (φs : List (Formula α)) :
    joinAll? c (φ :: φs) = some (joinAll c φ φs) := rfl

end Formula

/-! ## Phrases -/

/-- Parts with a connective in front of each but the first. -/
structure Phrase (β : Type) where
  first : β
  rest : List (Connective × β)
  deriving DecidableEq, Repr

namespace Phrase

def one (b : β) : Phrase β := ⟨b, []⟩

/-- Two phrases with a connective between them. -/
def join (c : Connective) (p q : Phrase β) : Phrase β :=
  ⟨p.first, p.rest ++ (c, q.first) :: q.rest⟩

@[simp] theorem first_join (c : Connective) (p q : Phrase β) :
    (p.join c q).first = p.first := rfl

/-- Several phrases with a connective between each two. -/
def joinAll (c : Connective) (p : Phrase β) (ps : List (Phrase β)) : Phrase β :=
  ps.foldl (join c) p

theorem join_assoc (c : Connective) (p q r : Phrase β) :
    (p.join c q).join c r = p.join c (q.join c r) := by
  simp [join]

theorem joinAll_cons (c : Connective) (p q : Phrase β) (ps : List (Phrase β)) :
    joinAll c p (q :: ps) = p.join c (joinAll c q ps) := by
  induction ps generalizing q with
  | nil => rfl
  | cons r ps ih =>
    have h := ih (q.join c r)
    rw [joinAll, List.foldl_cons, ← join_assoc] at h
    exact h

/-- Whether a phrase holds together beside a connective: an OR at its top is torn apart by an AND
next to it. -/
def isTight (p : Phrase β) : Connective → Bool
  | .and => p.rest.all fun link => link.1 == .and
  | .or => true

@[simp] theorem isTight_one (b : β) (c : Connective) : (one b).isTight c = true := by
  cases c <;> rfl

theorem isTight_join (c : Connective) (p q : Phrase β) :
    (p.join c q).isTight c = (p.isTight c && q.isTight c) := by
  cases c <;> simp [isTight, join]

/-- Beside an AND, single parts hold together unless an OR joins two of them. -/
theorem isTight_joinAll_one (c : Connective) (b : β) (bs : List β) :
    (joinAll c (one b) (bs.map one)).isTight .and = (c == .and || bs.isEmpty) := by
  cases bs with
  | nil => simp [joinAll]
  | cons d bs =>
    rw [List.map_cons, joinAll_cons]
    cases c with
    | or => rfl
    | and =>
      induction bs generalizing d with
      | nil => simp [joinAll, isTight_join]
      | cons e bs ih => simpa [List.map_cons, joinAll_cons, isTight_join] using ih e

end Phrase

/-- The formula of parts and the connectives between them: AND binds tighter than OR. -/
def precedence : Formula α → List (Connective × Formula α) → Formula α
  | φ, [] => φ
  | φ, (.and, ψ) :: rest => precedence (.join .and φ ψ) rest
  | φ, (.or, ψ) :: rest => .join .or φ (precedence ψ rest)

/-- The formula that a phrase is read as. -/
def Phrase.formula (p : Phrase (Formula α)) : Formula α := precedence p.first p.rest

open Formula

@[simp] theorem Phrase.formula_one (φ : Formula α) : (Phrase.one φ).formula = φ := rfl

theorem tests_precedence (φ : Formula α) (rest : List (Connective × Formula α)) :
    (precedence φ rest).tests = φ.tests ++ rest.flatMap fun link => link.2.tests := by
  induction rest generalizing φ with
  | nil => simp [precedence]
  | cons link rest ih =>
    obtain ⟨c, ψ⟩ := link
    cases c <;> simp [precedence, ih, tests]

theorem Phrase.tests_formula_join (c : Connective) (p q : Phrase (Formula α)) :
    (p.join c q).formula.tests = p.formula.tests ++ q.formula.tests := by
  simp [formula, join, tests_precedence]

/-- An OR parts what stands before it from what stands behind it. -/
theorem agrees_precedence_or (φ ψ : Formula α) (before after : List (Connective × Formula α)) :
    Agrees (precedence φ (before ++ (.or, ψ) :: after))
      (.join .or (precedence φ before) (precedence ψ after)) := by
  induction before generalizing φ with
  | nil => exact fun _ => rfl
  | cons link before ih =>
    obtain ⟨c, χ⟩ := link
    cases c with
    | and => exact ih (.join .and φ χ)
    | or =>
      -- two ORs in a row: they may be grouped either way
      intro truth
      rw [precedence, value_join_assoc, List.cons_append, precedence, value, value, ih χ]

/-- What follows the first part sees nothing of it but its truth. -/
theorem Formula.Agrees.precedence {φ ψ : Formula α} (h : Agrees φ ψ) (hs : φ.size = ψ.size)
    (rest : List (Connective × Formula α)) :
    Agrees (precedence φ rest) (precedence ψ rest) := by
  induction rest generalizing φ ψ with
  | nil => exact h
  | cons link rest ih =>
    obtain ⟨c, χ⟩ := link
    have hj : Agrees (.join c φ χ) (.join c ψ χ) :=
      (agrees_join_join_iff hs).2 ⟨h, fun _ => rfl⟩
    cases c with
    | and => exact ih hj (by simp [hs])
    | or => exact (agrees_join_join_iff hs).2 ⟨h, fun _ => rfl⟩

/-- A conjunction may be cut behind its first part. -/
theorem agrees_precedence_and (φ ψ : Formula α) {rest : List (Connective × Formula α)}
    (h : ∀ link ∈ rest, link.1 = .and) :
    Agrees (precedence (.join .and φ ψ) rest) (.join .and φ (precedence ψ rest)) := by
  induction rest generalizing ψ with
  | nil => exact fun _ => rfl
  | cons link rest ih =>
    obtain ⟨c, χ⟩ := link
    obtain rfl : c = .and := h (c, χ) (by simp)
    have hassoc : Agrees (.join .and (.join .and φ ψ) χ) (.join .and φ (.join .and ψ χ)) :=
      value_join_assoc .and φ ψ χ
    intro truth
    rw [precedence, precedence, hassoc.precedence (by simp [Nat.add_assoc]) rest truth]
    exact ih (.join .and ψ χ) (fun l hl => h l (by simp [hl])) truth

theorem agrees_precedence_append_and (φ ψ : Formula α)
    {before after : List (Connective × Formula α)} (hb : ∀ link ∈ before, link.1 = .and)
    (ha : ∀ link ∈ after, link.1 = .and) :
    Agrees (precedence φ (before ++ (.and, ψ) :: after))
      (.join .and (precedence φ before) (precedence ψ after)) := by
  induction before generalizing φ with
  | nil => exact agrees_precedence_and φ ψ ha
  | cons link before ih =>
    obtain ⟨c, χ⟩ := link
    obtain rfl : c = .and := hb (c, χ) (by simp)
    exact ih (.join .and φ χ) fun l hl => hb l (by simp [hl])

/-! ## Phrases side by side -/

namespace Phrase

variable {p q : Phrase (Formula α)} {φ ψ : Formula α} {c : Connective}

theorem agrees_formula_join (hp : p.isTight c = true) (hq : q.isTight c = true) :
    Agrees (p.join c q).formula (.join c p.formula q.formula) := by
  cases c with
  | and =>
    simp only [isTight, List.all_eq_true, beq_iff_eq] at hp hq
    exact agrees_precedence_append_and _ _ hp hq
  | or => exact agrees_precedence_or _ _ _ _

theorem exists_or_of_not_isTight (h : p.isTight .and = false) :
    ∃ before χ after, p.rest = before ++ (.or, χ) :: after := by
  obtain ⟨⟨d, χ⟩, hm, hd⟩ := List.all_eq_false.1 h
  obtain ⟨before, after, hr⟩ := List.append_of_mem hm
  have hor : d = .or := by
    cases d with
    | and => simp at hd
    | or => rfl
  exact ⟨before, χ, after, by rw [hr, hor]⟩

/-- A phrase with an OR holds when everything in front of the OR does, and when everything behind
it does. -/
theorem value_formula_of_or {before after : List (Connective × Formula α)} {χ : Formula α}
    (h : p.rest = before ++ (.or, χ) :: after) :
    (p.formula.value fun n => decide (n < (precedence p.first before).size)) = true
      ∧ (p.formula.value fun n => decide ((precedence p.first before).size ≤ n)) = true := by
  have hor := agrees_precedence_or p.first χ before after
  rw [formula, h]
  refine ⟨?_, ?_⟩
  · rw [hor, value, value_of_forall (b := true) (fun n hn => by simpa using hn)]
    rfl
  · rw [hor, value, value_of_forall (φ := precedence χ after) (b := true) (fun n _ => by simp)]
    simp [Connective.apply]

/-- An OR in the first of two phrases tears the AND between them apart. -/
theorem not_agrees_of_or_left (hφ : p.formula.size = φ.size) (hp : p.isTight .and = false) :
    ¬ Agrees (p.join .and q).formula (.join .and φ ψ) := by
  obtain ⟨before, χ, after, hr⟩ := exists_or_of_not_isTight hp
  have hj : (p.join .and q).rest
      = before ++ (.or, χ) :: (after ++ (.and, q.first) :: q.rest) := by
    simp [join, hr]
  intro h
  have htrue := (value_formula_of_or hj).1
  have hle : (precedence p.first before).size ≤ φ.size := by
    rw [← hφ, formula, hr]
    simp [size, tests_precedence]
  -- the tests of `ψ` all stand behind the OR, so they all fail
  have hψ : (ψ.value fun n =>
      decide (φ.size + n < (precedence (p.join .and q).first before).size)) = false :=
    value_of_forall fun n _ => decide_eq_false (by rw [first_join]; omega)
  rw [h, value, hψ] at htrue
  simp [Connective.apply] at htrue

/-- An OR in the second of two phrases tears the AND between them apart. -/
theorem not_agrees_of_or_right (hφ : p.formula.size = φ.size) (hq : q.isTight .and = false) :
    ¬ Agrees (p.join .and q).formula (.join .and φ ψ) := by
  obtain ⟨before, χ, after, hr⟩ := exists_or_of_not_isTight hq
  have hj : (p.join .and q).rest
      = (p.rest ++ (.and, q.first) :: before) ++ (.or, χ) :: after := by
    simp [join, hr]
  intro h
  have htrue := (value_formula_of_or hj).2
  have hle : φ.size
      ≤ (precedence p.first (p.rest ++ (.and, q.first) :: before)).size := by
    rw [← hφ, formula]
    simp [size, tests_precedence]
  -- the tests of `φ` all stand in front of the OR, so they all fail
  have hφ : (φ.value fun n => decide
      ((precedence (p.join .and q).first (p.rest ++ (.and, q.first) :: before)).size ≤ n))
      = false :=
    value_of_forall fun n hn => decide_eq_false (by rw [first_join]; omega)
  rw [h, value, hφ] at htrue
  simp [Connective.apply] at htrue

/-- When two phrases side by side are read as two formulas under the connective between them. -/
theorem agrees_join_iff (hφ : p.formula.size = φ.size) :
    Agrees (p.join c q).formula (.join c φ ψ) ↔
      (p.isTight c = true ∧ q.isTight c = true) ∧ Agrees p.formula φ ∧ Agrees q.formula ψ := by
  by_cases hp : p.isTight c = true
  · by_cases hq : q.isTight c = true
    · have hcut := agrees_formula_join hp hq
      rw [← agrees_join_join_iff hφ]
      simp only [hp, hq, and_self, true_and]
      exact ⟨fun h t => (hcut t).symm.trans (h t), fun h t => (hcut t).trans (h t)⟩
    · cases c with
      | and => simp [not_agrees_of_or_right hφ (Bool.not_eq_true _ ▸ hq), hq]
      | or => exact absurd rfl hq
  · cases c with
    | and => simp [not_agrees_of_or_left hφ (Bool.not_eq_true _ ▸ hp), hp]
    | or => exact absurd rfl hp

/-! ### Reading too much -/

/-- Under AND, the formula that was meant implies the one that is read. -/
theorem implies_formula_join_and (p q : Phrase (Formula α)) :
    Implies (.join .and p.formula q.formula) (p.join .and q).formula := by
  obtain ⟨φ, before⟩ := p
  obtain ⟨ψ, after⟩ := q
  show Implies (.join .and (precedence φ before) (precedence ψ after))
    (precedence φ (before ++ (.and, ψ) :: after))
  -- an OR on either side of the AND leaves it to the parts next to it, so both sides are shortened
  -- down to the AND in turn
  induction before generalizing φ with
  | nil =>
    show Implies (.join .and φ (precedence ψ after)) (precedence (.join .and φ ψ) after)
    induction after generalizing ψ with
    | nil => exact fun _ h => h
    | cons link after ih =>
      obtain ⟨c, χ⟩ := link
      cases c with
      | and =>
        intro truth h
        have hassoc : Agrees (.join .and (.join .and φ ψ) χ) (.join .and φ (.join .and ψ χ)) :=
          value_join_assoc .and φ ψ χ
        rw [precedence, hassoc.precedence (by simp [Nat.add_assoc])]
        exact ih (.join .and ψ χ) truth h
      | or =>
        intro truth h
        simp only [value, Connective.apply, precedence, size_join, Nat.add_assoc,
          Bool.and_eq_true, Bool.or_eq_true] at h ⊢
        exact h.2.imp (fun hψ => ⟨h.1, hψ⟩) id
  | cons link before ih =>
    obtain ⟨c, χ⟩ := link
    cases c with
    | and => exact ih (.join .and φ χ)
    | or =>
      intro truth h
      have hrest := ih χ (fun n => truth (φ.size + n))
      simp only [value, Connective.apply, precedence, List.cons_append, size_join,
        Nat.add_assoc, Bool.and_eq_true, Bool.or_eq_true] at h hrest ⊢
      exact h.1.imp id fun hχ => hrest ⟨hχ, h.2⟩

/-- A phrase shows a formula if it has the same tests in the same order and holds at least
wherever the formula does. -/
structure Shows (p : Phrase (Formula α)) (φ : Formula α) : Prop where
  tests : p.formula.tests = φ.tests
  implies : Implies φ p.formula

theorem Shows.size (h : p.Shows φ) : p.formula.size = φ.size := by
  rw [Formula.size, h.tests, Formula.size]

theorem Shows.one (φ : Formula α) : (Phrase.one φ).Shows φ := ⟨rfl, fun _ h => h⟩

/-- What two phrases show is shown by the two side by side. -/
theorem Shows.join (hp : p.Shows φ) (hq : q.Shows ψ) : (p.join c q).Shows (.join c φ ψ) where
  tests := by rw [tests_formula_join, hp.tests, hq.tests, Formula.tests]
  implies := by
    have hparts : Implies (.join c φ ψ) (.join c p.formula q.formula) := by
      intro truth h
      have hφ := hp.implies truth
      have hψ := hq.implies fun n => truth (φ.size + n)
      cases c <;>
        simp only [value, Connective.apply, Bool.and_eq_true, Bool.or_eq_true, hp.size] at h ⊢
      · exact ⟨hφ h.1, hψ h.2⟩
      · exact h.imp hφ hψ
    intro truth h
    cases c with
    | and => exact implies_formula_join_and p q truth (hparts truth h)
    | or => exact (agrees_precedence_or _ _ _ _ truth).symm ▸ hparts truth h

theorem Shows.joinAll {ps : List (Phrase (Formula α))} {φs : List (Formula α)} (hp : p.Shows φ)
    (hps : List.Forall₂ Shows ps φs) :
    (Phrase.joinAll c p ps).Shows (Formula.joinAll c φ φs) := by
  induction hps generalizing p φ with
  | nil => exact hp
  | cons hq _ ih => exact ih (hp.join hq)

/-- When several phrases are read as the formulas they show: one alone always keeps its reading,
several have to be tight. -/
theorem agrees_joinAll_iff {ps : List (Phrase (Formula α))} {φs : List (Formula α)}
    (hp : p.Shows φ) (hps : List.Forall₂ Shows ps φs) :
    Agrees (Phrase.joinAll c p ps).formula (Formula.joinAll c φ φs) ↔
      (ps = [] ∨ ∀ q ∈ p :: ps, q.isTight c = true) ∧
        Agrees p.formula φ ∧ List.Forall₂ (fun q ψ => Agrees q.formula ψ) ps φs := by
  induction hps generalizing p φ with
  | nil => simp [Phrase.joinAll, Formula.joinAll]
  | @cons q ψ ps φs hq hps ih =>
    -- the first two phrases are put together, and the result stands in front of the others
    have hstep := ih (hp.join (c := c) hq)
    rw [Phrase.joinAll, Formula.joinAll] at hstep ⊢
    rw [List.foldl_cons, List.foldl_cons, hstep, agrees_join_iff hp.size, List.forall₂_cons]
    simp only [List.forall_mem_cons, isTight_join, Bool.and_eq_true, reduceCtorEq, false_or]
    constructor
    · rintro ⟨ht, ⟨⟨hpt, hqt⟩, hpa, hqa⟩, hr⟩
      refine ⟨⟨hpt, hqt, ?_⟩, hpa, hqa, hr⟩
      rcases ht with rfl | ht
      · simp
      · exact ht.2
    · rintro ⟨⟨hpt, hqt, ht⟩, hpa, hqa, hr⟩
      exact ⟨.inr ⟨⟨hpt, hqt⟩, ht⟩, ⟨⟨hpt, hqt⟩, hpa, hqa⟩, hr⟩

end Phrase

end Sqlwright.Condition
