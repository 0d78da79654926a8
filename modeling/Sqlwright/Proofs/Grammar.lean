import Mathlib.Computability.RegularExpressions
import Sqlwright.Proofs.Run

/-!
# The grammar of statements

The calls of a statement follow a grammar: a SELECT names its tables, then perhaps joins, a filter,
groups, an order, a limit and an offset; the other statements have fewer clauses. The stages admit
exactly what begins a word of that grammar, where calls that leave the statement as it is may come
at any time once it is opened (`Builder.inOrder_iff_isGrammatical`).
-/

namespace Sqlwright

/-! ## Chains of calls -/

/-- The calls that open a statement, without their arguments. -/
inductive StartKind where
  | select
  | count
  | aggregate (function : Aggregate)
  | update
  | updateWith
  | insert
  | deleteFrom
  deriving DecidableEq, Repr

/-- The stage that a call opens a statement at. -/
def StartKind.stage : StartKind → Stage
  | .select | .count | .aggregate _ => .projected
  | .update => .updating
  | .updateWith => .assigned
  | .insert => .inserted
  | .deleteFrom => .deleting

def Start.kind : Start → StartKind
  | .select _ => .select
  | .count _ _ => .count
  | .aggregate function _ _ => .aggregate function
  | .update _ => .update
  | .updateWith _ _ _ => .updateWith
  | .insert _ _ _ => .insert
  | .deleteFrom _ => .deleteFrom

theorem Start.stage_kind (s : Start) : s.kind.stage = s.stage := by
  cases s <;> rfl

/-- A call of a chain: it opens a statement, continues it, or builds its text as far as it is. -/
inductive Link where
  | opening (s : Start)
  | step (s : Step)
  | build (inlined : Bool)

/-- A call without its arguments. -/
inductive LinkKind where
  | opening (k : StartKind)
  | step (k : StepKind)
  | build
  deriving DecidableEq, Repr

def Link.kind : Link → LinkKind
  | .opening s => .opening s.kind
  | .step s => .step s.kind
  | .build _ => .build

/-- Whether a call leaves the statement at its stage whatever that is. -/
def LinkKind.keeps : LinkKind → Bool
  | .step .rebind | .build => true
  | _ => false

/-- Continues a query by a chain of calls. No query can be opened again. -/
def Query.chain : Query → List Link → Except Refusal Query
  | q, [] => .ok q
  | _, .opening _ :: _ => .error .outOfOrder
  | q, .step s :: rest =>
    match q.step s with
    | .error r => .error r
    | .ok q => q.chain rest
  | q, .build _ :: rest => q.chain rest

/-- Runs a chain of calls. Only an opening call can be the first. -/
def Builder.chain (b : Builder) : Link → List Link → Except Refusal Query
  | .opening s, rest =>
    match b.start s with
    | .error f => .error (.fault f)
    | .ok q => q.chain rest
  | _, _ => .error .outOfOrder

theorem Query.chain_map_step (q : Query) (steps : List Step) :
    q.chain (steps.map .step) = q.steps steps := by
  induction steps generalizing q with
  | nil => rfl
  | cons s steps ih =>
    rw [List.map_cons, Query.chain, Query.steps]
    cases q.step s with
    | error r => rfl
    | ok q' => exact ih q'

/-- A program is a chain that builds nothing on its way. -/
theorem Builder.chain_map_step (b : Builder) (s : Start) (steps : List Step) :
    b.chain (.opening s) (steps.map .step) = b.build s steps := by
  rw [Builder.chain, Builder.build]
  cases b.start s with
  | error f => rfl
  | ok q => exact q.chain_map_step steps

/-! ## The grammar -/

namespace Grammar

open RegularExpression

def opening (k : StartKind) : RegularExpression LinkKind := char (.opening k)

def call (k : StepKind) : RegularExpression LinkKind := char (.step k)

def maybe (p : RegularExpression LinkKind) : RegularExpression LinkKind := 1 + p

/-- The calls that open a SELECT. -/
def head : RegularExpression LinkKind :=
  opening .select + opening .count + opening (.aggregate .max) + opening (.aggregate .min)
    + opening (.aggregate .avg) + opening (.aggregate .sum)

/-- The calls of a finished statement. -/
def statement : RegularExpression LinkKind :=
  head * call .source * star (call .join) * maybe (call .filter) * maybe (call .group)
      * maybe (call .order) * maybe (call .limit * maybe (call .offset))
    + opening .update * call .set * maybe (call .filter) * maybe (call .order)
      * maybe (call .limit)
    + opening .updateWith * maybe (call .filter) * maybe (call .order)
      * maybe (call .limit)
    + opening .deleteFrom * maybe (call .filter) * maybe (call .order)
      * maybe (call .limit)
    + opening .insert

/-- What a chain adds to its word: its calls, without those that keep any stage. -/
def moves (rest : List Link) : List LinkKind := (rest.map Link.kind).filter fun k => !k.keeps

end Grammar

/-- A chain fits the grammar: its first call opens a statement, and without the calls that keep any
stage it begins a word. -/
def IsGrammatical (first : Link) (rest : List Link) : Prop :=
  ∃ start, first = .opening start ∧ ∃ word ∈ Grammar.statement.matches',
    LinkKind.opening start.kind :: Grammar.moves rest <+: word

/-! ## Languages -/

section Languages

open Computability

variable {α : Type} {a k : α} {w : List α} {L M : Language α}

theorem cons_mem_singleton : a :: w ∈ ({[k]} : Language α) ↔ a = k ∧ w = [] :=
  List.cons_eq_cons

theorem cons_mem_singleton_mul : a :: w ∈ ({[k]} : Language α) * L ↔ a = k ∧ w ∈ L := by
  rw [Language.mem_mul]
  constructor
  · rintro ⟨_, rfl, v, hv, h⟩
    obtain ⟨rfl, rfl⟩ := List.cons.inj h
    exact ⟨rfl, hv⟩
  · rintro ⟨rfl, hw⟩
    exact ⟨[a], rfl, w, hw, rfl⟩

theorem cons_mem_maybe : a :: w ∈ 1 + M ↔ a :: w ∈ M := by
  rw [Language.mem_add, Language.mem_one, or_iff_right (List.cons_ne_nil a w)]

theorem cons_mem_maybe_mul : a :: w ∈ (1 + M) * L ↔ a :: w ∈ M * L ∨ a :: w ∈ L := by
  rw [add_mul, one_mul, Language.mem_add, or_comm]

theorem cons_mem_kstar_mul :
    a :: w ∈ ({[k]} : Language α)∗ * L ↔ a = k ∧ w ∈ ({[k]} : Language α)∗ * L ∨ a :: w ∈ L := by
  conv_lhs => rw [← Language.one_add_self_mul_kstar_eq_kstar]
  rw [cons_mem_maybe_mul, mul_assoc, cons_mem_singleton_mul]

theorem nil_mem_maybe_mul (h : [] ∈ L) : [] ∈ (1 + M) * L := by
  rw [add_mul, one_mul, Language.mem_add]
  exact .inl h

theorem nil_mem_kstar_mul (h : [] ∈ L) : [] ∈ M∗ * L :=
  Language.mem_mul.2 ⟨[], Language.nil_mem_kstar M, [], h, rfl⟩

end Languages

/-! ## What may follow a stage -/

namespace Stage

open Grammar RegularExpression

/-- The calls that finish a statement from a stage on. -/
def tail : Stage → RegularExpression LinkKind
  | .projected => call .source * (star (call .join) * (maybe (call .filter)
      * (maybe (call .group) * (maybe (call .order)
      * maybe (call .limit * maybe (call .offset))))))
  | .sourced => star (call .join) * (maybe (call .filter) * (maybe (call .group)
      * (maybe (call .order) * maybe (call .limit * maybe (call .offset)))))
  | .filtered => maybe (call .group) * (maybe (call .order)
      * maybe (call .limit * maybe (call .offset)))
  | .grouped => maybe (call .order) * maybe (call .limit * maybe (call .offset))
  | .ordered => maybe (call .limit * maybe (call .offset))
  | .limited => maybe (call .offset)
  | .updating => call .set * (maybe (call .filter) * (maybe (call .order)
      * maybe (call .limit)))
  | .assigned | .deleting => maybe (call .filter) * (maybe (call .order)
      * maybe (call .limit))
  | .mutationFiltered => maybe (call .order) * maybe (call .limit)
  | .mutationOrdered => maybe (call .limit)
  | .paged | .inserted | .mutationLimited => 1

/-- The stage after a call of a chain that does not keep it. -/
def after? (s : Stage) : LinkKind → Option Stage
  | .step k => s.next? k
  | _ => none

/-- The first call of a tail leads to a stage that the rest finishes. -/
theorem cons_mem_tail_iff {s : Stage} {k : LinkKind} (hk : k.keeps = false)
    {w : List LinkKind} :
    k :: w ∈ s.tail.matches' ↔ ∃ s', s.after? k = some s' ∧ w ∈ s'.tail.matches' := by
  -- a tail lists the calls that may come first, each with the tail that it leads to
  cases s <;>
    simp only [tail, call, maybe, matches'_mul, matches'_add, matches'_star, matches'_char,
      matches'_epsilon, cons_mem_kstar_mul, cons_mem_maybe_mul, cons_mem_maybe,
      cons_mem_singleton_mul, cons_mem_singleton, Language.mem_one]
  all_goals
    cases k with
    | opening k => simp [after?]
    | build => cases hk
    | step k => cases k <;> simp_all [after?, next?, LinkKind.keeps]

/-- Every stage can be finished. -/
theorem exists_mem_tail (s : Stage) : ∃ w, w ∈ s.tail.matches' := by
  have hpaging : [] ∈ (1 + (call .limit * maybe (call .offset)).matches' : Language LinkKind) :=
    .inl rfl
  have hlimit : [] ∈ (1 + (call .limit).matches' : Language LinkKind) := .inl rfl
  have hselect := nil_mem_maybe_mul (M := (call .group).matches')
    (nil_mem_maybe_mul (M := (call .order).matches') hpaging)
  have hsource := nil_mem_kstar_mul (M := (call .join).matches')
    (nil_mem_maybe_mul (M := (call .filter).matches') hselect)
  have hchange := nil_mem_maybe_mul (M := (call .filter).matches')
    (nil_mem_maybe_mul (M := (call .order).matches') hlimit)
  cases s with
  | projected => exact ⟨[.step .source], cons_mem_singleton_mul.2 ⟨rfl, hsource⟩⟩
  | sourced => exact ⟨[], hsource⟩
  | filtered => exact ⟨[], hselect⟩
  | grouped => exact ⟨[], nil_mem_maybe_mul hpaging⟩
  | ordered => exact ⟨[], hpaging⟩
  | limited => exact ⟨[], .inl rfl⟩
  | updating => exact ⟨[.step .set], cons_mem_singleton_mul.2 ⟨rfl, hchange⟩⟩
  | assigned | deleting => exact ⟨[], hchange⟩
  | mutationFiltered => exact ⟨[], nil_mem_maybe_mul hlimit⟩
  | mutationOrdered => exact ⟨[], hlimit⟩
  | paged | inserted | mutationLimited => exact ⟨[], rfl⟩

/-- Whether calls begin something that finishes a statement from a stage on. -/
def Offers (s : Stage) (calls : List LinkKind) : Prop :=
  ∃ w ∈ s.tail.matches', calls <+: w

theorem offers_nil (s : Stage) : s.Offers [] := by
  obtain ⟨w, hw⟩ := s.exists_mem_tail
  exact ⟨w, hw, List.nil_prefix⟩

theorem offers_cons_iff {s : Stage} {k : LinkKind} (hk : k.keeps = false)
    {calls : List LinkKind} :
    s.Offers (k :: calls) ↔ ∃ s', s.after? k = some s' ∧ s'.Offers calls := by
  constructor
  · rintro ⟨w, hw, hprefix⟩
    obtain ⟨w', rfl, hw'⟩ := List.cons_prefix_iff.1 hprefix
    obtain ⟨s', hs', hmem⟩ := (cons_mem_tail_iff hk).1 hw
    exact ⟨s', hs', w', hmem, hw'⟩
  · rintro ⟨s', hs', w, hw, hprefix⟩
    exact ⟨k :: w, (cons_mem_tail_iff hk).2 ⟨s', hs', hw⟩,
      List.cons_prefix_cons.2 ⟨rfl, hprefix⟩⟩

/-- A call that keeps any stage may come at any time. -/
theorem next?_of_keeps {s : Stage} {k : StepKind} (hk : (LinkKind.step k).keeps = true) :
    s.next? k = some s := by
  cases k <;> first | rfl | cases hk

/-- A step is offered if its call is, and the next stage offers what follows. -/
theorem offers_moves_step_iff {s : Stage} {step : Step} {rest : List Link} :
    s.Offers (moves (.step step :: rest)) ↔
      ∃ s', s.next? step.kind = some s' ∧ s'.Offers (moves rest) := by
  by_cases hk : (LinkKind.step step.kind).keeps = true
  · rw [next?_of_keeps hk, moves, List.map_cons, Link.kind, List.filter_cons_of_neg (by simp [hk])]
    simp [moves]
  · rw [Bool.not_eq_true] at hk
    rw [moves, List.map_cons, Link.kind, List.filter_cons_of_pos (by simp [hk]), offers_cons_iff hk]
    rfl

end Stage

/-! ## Runs -/

/-- A call fails for its arguments, or because the stage does not offer it. -/
theorem Query.step_eq_error {q : Query} {s : Step} {r : Refusal} (h : q.step s = .error r) :
    (∃ f, r = .fault f) ∨ r = .outOfOrder ∧ q.stage.next? s.kind = none := by
  rw [step] at h
  split at h
  · next hnext =>
    cases h
    exact .inr ⟨rfl, hnext⟩
  · split at h
    · next f _ =>
      cases h
      exact .inl ⟨f, rfl⟩
    · cases h

/-- A query can be continued in order by exactly what its stage offers. -/
theorem Query.inOrder_iff_offers {q : Query} {rest : List Link}
    (hvalid : ∀ f, q.chain rest ≠ .error (.fault f)) :
    q.chain rest ≠ .error .outOfOrder ↔ q.stage.Offers (Grammar.moves rest) := by
  induction rest generalizing q with
  | nil => exact iff_of_true nofun q.stage.offers_nil
  | cons link rest ih =>
    cases link with
    | opening s =>
      refine iff_of_false (fun h => h rfl) fun h => ?_
      obtain ⟨s', hs', -⟩ := (Stage.offers_cons_iff rfl).1 h
      cases hs'
    | build inlined => exact ih hvalid
    | step s =>
      rw [Stage.offers_moves_step_iff]
      rw [chain] at hvalid ⊢
      cases hs : q.step s with
      | error r =>
        simp only [hs] at hvalid ⊢
        obtain ⟨f, rfl⟩ | ⟨rfl, hnext⟩ := step_eq_error hs
        · exact absurd rfl (hvalid f)
        · simp [hnext]
      | ok q' =>
        simp only [hs] at hvalid ⊢
        obtain ⟨stage, clause, hnext, -, rfl⟩ := step_eq_ok_iff.1 hs
        rw [ih hvalid, hnext]
        simp

open Grammar RegularExpression in
/-- The words of the grammar: an opening call and what finishes its statement. -/
theorem Grammar.opening_cons_mem_statement_iff {k : StartKind} {w : List LinkKind} :
    .opening k :: w ∈ statement.matches' ↔ w ∈ k.stage.tail.matches' := by
  simp only [Grammar.statement, head, opening, matches'_add, matches'_mul, matches'_char,
    mul_assoc, add_mul, Language.mem_add, cons_mem_singleton_mul, cons_mem_singleton,
    LinkKind.opening.injEq]
  cases k with
  | aggregate function => cases function <;> simp [StartKind.stage, Stage.tail]
  | _ => simp [StartKind.stage, Stage.tail]

theorem isGrammatical_opening_iff {start : Start} {rest : List Link} :
    IsGrammatical (.opening start) rest ↔ start.stage.Offers (Grammar.moves rest) := by
  rw [← start.stage_kind]
  constructor
  · rintro ⟨_, h, word, hword, hprefix⟩
    cases h
    obtain ⟨w, rfl, hw⟩ := List.cons_prefix_iff.1 hprefix
    exact ⟨w, Grammar.opening_cons_mem_statement_iff.1 hword, hw⟩
  · rintro ⟨w, hw, hprefix⟩
    exact ⟨start, rfl, .opening start.kind :: w,
      Grammar.opening_cons_mem_statement_iff.2 hw, List.cons_prefix_cons.2 ⟨rfl, hprefix⟩⟩

/-- A chain of calls whose arguments are accepted is in order exactly if it fits the grammar. -/
theorem Builder.inOrder_iff_isGrammatical {b : Builder} {first : Link} {rest : List Link}
    (hvalid : ∀ f, b.chain first rest ≠ .error (.fault f)) :
    b.chain first rest ≠ .error .outOfOrder ↔ IsGrammatical first rest := by
  cases first with
  | step _ | build _ =>
    refine iff_of_false (fun h => h rfl) ?_
    rintro ⟨start, h, -⟩
    cases h
  | opening start =>
    rw [isGrammatical_opening_iff]
    rw [chain] at hvalid ⊢
    cases hs : b.start start with
    | error f =>
      simp only [hs] at hvalid
      exact absurd rfl (hvalid f)
    | ok q =>
      simp only [hs] at hvalid ⊢
      obtain ⟨clauses, -, rfl⟩ := start_eq_ok_iff.1 hs
      exact Query.inOrder_iff_offers hvalid

/-- A SELECT with two joins, built on its way, whose filter and limit say nothing. -/
def twoJoins : List Link :=
  [.step (.source "users" (some "u")), .build true, .step (.join .left "orders" none "o.id = u.id"),
   .step (.join .inner "teams" (some "t") "t.id = u.team"), .step (.filter (.ready [])),
   .step (.limit none), .build false, .step (.offset (some 5))]

/-- The chain of two joins fits the grammar, but an offset right behind a table does not. -/
theorem isGrammatical_twoJoins :
    (∀ f, (Builder.mk none).chain (.opening (.select (.ready []))) twoJoins ≠ .error (.fault f)) ∧
      IsGrammatical (.opening (.select (.ready []))) twoJoins ∧
      ¬IsGrammatical (.opening (.count "id" none))
        [.step (.source "users" none), .step (.offset (some 5))] := by
  obtain ⟨q, hq⟩ : ∃ q, (Builder.mk none).chain (.opening (.select (.ready []))) twoJoins = .ok q :=
    ⟨_, rfl⟩
  have hr : (Builder.mk none).chain (.opening (.count "id" none))
      [.step (.source "users" none), .step (.offset (some 5))] = .error .outOfOrder := rfl
  have hvalid : ∀ f, (Builder.mk none).chain (.opening (.select (.ready []))) twoJoins
      ≠ .error (.fault f) := by simp [hq]
  refine ⟨hvalid, (Builder.inOrder_iff_isGrammatical hvalid).1 (by simp [hq]), fun h => ?_⟩
  exact (Builder.inOrder_iff_isGrammatical (by simp [hr])).2 h hr

end Sqlwright
