import Sqlwright.Proofs.Appending
import Sqlwright.Proofs.Payload

/-!
# Text without values

Two programs that make the same calls, with arguments that differ in nothing but their values, build
statements of one text at every stage, and their parameters are linked place by place. So no value
ever finds its way into the text, and none moves to another place.
-/

namespace Sqlwright

variable {R : Value → Value → Prop}

/-! ## Calls -/

/-- Arguments that are related once they are read. -/
def Input.Alike {α : Type} (read : Document → Except Fault α) (S : α → α → Prop)
    (input other : Input α) : Prop :=
  ∀ a b, input.resolve read = .ok a → other.resolve read = .ok b → S a b

/-- The same opening calls, with arguments that differ in nothing but their values. -/
inductive Start.Alike (R : Value → Value → Prop) : Start → Start → Prop where
  | select {fields others : Input SelectList}
      (h : fields.Alike SelectList.read (List.Forall₂ (Field.Alike R)) others) :
      Alike R (.select fields) (.select others)
  | count (field : String) (label : Option String) :
      Alike R (.count field label) (.count field label)
  | aggregate (function : Aggregate) (field : String) (label : Option String) :
      Alike R (.aggregate function field label) (.aggregate function field label)
  | update (table : String) : Alike R (.update table) (.update table)
  | updateWith (table : String) {values others : Input Assignments} {o p : UpdateOptions}
      (h : values.Alike Assignments.read (Keyed.Alike (Assignment.Alike R)) others)
      (ho : o.Alike R p) : Alike R (.updateWith table values o) (.updateWith table others p)
  | insert (table : String) {rows others : Input (List Row)} {o p : InsertOptions}
      (h : rows.Alike Insertion.read (List.Forall₂ (Keyed.Alike R)) others) (ho : o.Alike R p) :
      Alike R (.insert table rows o) (.insert table others p)
  | deleteFrom (table : String) : Alike R (.deleteFrom table) (.deleteFrom table)

/-- The same calls, with arguments that differ in nothing but their values. Whether there is a
limit or an offset at all is no value, and no value comes from an executor. -/
inductive Step.Alike (R : Value → Value → Prop) : Step → Step → Prop where
  | source (table : String) (label : Option String) :
      Alike R (.source table label) (.source table label)
  | join (kind : JoinKind) (table : String) (label : Option String) (criterion : String) :
      Alike R (.join kind table label criterion) (.join kind table label criterion)
  | set {values others : Input Assignments}
      (h : values.Alike Assignments.read (Keyed.Alike (Assignment.Alike R)) others) :
      Alike R (.set values) (.set others)
  | filter {condition other : Input Condition.Tree}
      (h : condition.Alike Condition.readTree (Condition.NodeAlike R) other) :
      Alike R (.filter condition) (.filter other)
  | group (fields : List String) : Alike R (.group fields) (.group fields)
  | order (items : List OrderItem) : Alike R (.order items) (.order items)
  | limit {count other : Option UInt64}
      (h : Option.Rel (fun n m => R (.uint n) (.uint m)) count other) :
      Alike R (.limit count) (.limit other)
  | offset {count other : Option UInt64}
      (h : Option.Rel (fun n m => R (.uint n) (.uint m)) count other) :
      Alike R (.offset count) (.offset other)
  | rebind (executor other : Executor) : Alike R (.rebind executor) (.rebind other)

/-! ## What they add -/

theorem Fragment.alike_withLabel {f g : Fragment} (h : f.Alike R g) (label : Option String) :
    (f.withLabel label).Alike R (g.withLabel label) := by
  rw [Fragment.withLabel, Fragment.withLabel]
  split
  · exact ⟨by rw [h.sql], List.rel_append h.params (linked_names [_])⟩
  · exact h

theorem alike_countFragment (field : String) :
    (countFragment field).Alike R (countFragment field) := by
  rw [countFragment]
  split
  · exact Fragment.alike_names _ []
  · exact Fragment.alike_names _ [field]

theorem TableRef.alike_fragment (r : TableRef) : r.fragment.Alike R r.fragment := by
  rw [TableRef.fragment]
  split
  · exact Fragment.alike_names _ [_, _]
  · exact Fragment.alike_names _ [_]

/-- What opening calls add differs in nothing but their values. -/
theorem Start.alike_fragments {s t : Start} (h : s.Alike R t) {clauses others : List Clause}
    (hs : s.clauses = .ok clauses) (ht : t.clauses = .ok others) :
    List.Forall₂ (Fragment.Alike R) s.fragments t.fragments := by
  rw [Start.fragments, Start.fragments, hs, ht]
  cases h with
  | select h =>
    simp only [Start.clauses, bind_eq_ok_iff, pure_eq_ok_iff] at hs ht
    obtain ⟨fs, hfs, rfl⟩ := hs
    obtain ⟨gs, hgs, rfl⟩ := ht
    exact .cons (SelectList.alike_fragment (h fs gs hfs hgs)) .nil
  | count field label =>
    cases hs
    cases ht
    exact .cons (Fragment.alike_withLabel (alike_countFragment field) label) .nil
  | aggregate function field label =>
    cases hs
    cases ht
    exact .cons (Fragment.alike_withLabel (Fragment.alike_names _ [field]) label) .nil
  | update table =>
    simp only [Start.clauses, bind_eq_ok_iff, pure_eq_ok_iff] at hs ht
    obtain ⟨-, -, rfl⟩ := hs
    obtain ⟨-, -, rfl⟩ := ht
    exact .cons (Fragment.alike_names _ [table]) .nil
  | updateWith table h ho =>
    simp only [Start.clauses, bind_eq_ok_iff, pure_eq_ok_iff] at hs ht
    obtain ⟨-, -, values, hvalues, prepared, hprepared, f, hf, rfl⟩ := hs
    obtain ⟨-, -, values', hvalues', prepared', hprepared', g, hg, rfl⟩ := ht
    have hwritten := Assignments.alike_prepare ho (h _ _ hvalues hvalues') hprepared hprepared'
    exact .cons (Fragment.alike_names _ [table])
      (.cons (Assignments.alike_fragment hwritten hf hg) .nil)
  | insert table h ho =>
    simp only [Start.clauses, bind_eq_ok_iff, pure_eq_ok_iff] at hs ht
    obtain ⟨-, -, rows, hrows, f, hf, rfl⟩ := hs
    obtain ⟨-, -, rows', hrows', g, hg, rfl⟩ := ht
    exact .cons (Insertion.alike_fragment ho (h _ _ hrows hrows') hf hg) .nil
  | deleteFrom table =>
    simp only [Start.clauses, bind_eq_ok_iff, pure_eq_ok_iff] at hs ht
    obtain ⟨-, -, rfl⟩ := hs
    obtain ⟨-, -, rfl⟩ := ht
    exact .cons (Fragment.alike_names _ [table]) .nil

/-- Whether a condition adds a clause does not depend on its values. -/
theorem alike_filterClause {guarded guarded' : Bool} {tree other : Condition.Tree}
    (h : Condition.NodeAlike R tree other) {clause clause' : Option Clause}
    (hc : filterClause guarded tree = .ok clause)
    (hc' : filterClause guarded' other = .ok clause') :
    List.Forall₂ (Fragment.Alike R) (clause.map Prod.snd).toList (clause'.map Prod.snd).toList := by
  simp only [filterClause, bind_eq_ok_iff] at hc hc'
  obtain ⟨f, hf, hc⟩ := hc
  obtain ⟨g, hg, hc'⟩ := hc'
  have hpredicate := Condition.alike_predicate h hf hg
  rw [← hpredicate.isBlank_eq] at hc'
  split at hc
  · rename_i hblank
    rw [if_pos hblank] at hc'
    split at hc <;> cases hc
    split at hc' <;> cases hc'
    exact .nil
  · rename_i hblank
    rw [if_neg hblank] at hc'
    cases hc
    cases hc'
    exact .cons (hpredicate.enclose "WHERE " "") .nil

/-- What calls add differs in nothing but their values. -/
theorem Step.alike_fragments {s t : Step} (h : s.Alike R t) {guarded guarded' : Bool}
    {clause clause' : Option Clause} (hs : s.clause? guarded = .ok clause)
    (ht : t.clause? guarded' = .ok clause') :
    List.Forall₂ (Fragment.Alike R) s.fragments t.fragments := by
  rw [Step.fragments_eq hs, Step.fragments_eq ht]
  cases h with
  | source table label =>
    simp only [Step.clause?, bind_eq_ok_iff, pure_eq_ok_iff] at hs ht
    obtain ⟨-, -, rfl⟩ := hs
    obtain ⟨-, -, rfl⟩ := ht
    exact .cons ((TableRef.alike_fragment _).enclose "FROM " "") .nil
  | join kind table label criterion =>
    simp only [Step.clause?, bind_eq_ok_iff, pure_eq_ok_iff] at hs ht
    obtain ⟨-, -, rfl⟩ := hs
    obtain ⟨-, -, rfl⟩ := ht
    exact .cons ((TableRef.alike_fragment _).enclose _ _) .nil
  | set h =>
    simp only [Step.clause?, bind_eq_ok_iff, pure_eq_ok_iff] at hs ht
    obtain ⟨values, hvalues, f, hf, rfl⟩ := hs
    obtain ⟨values', hvalues', g, hg, rfl⟩ := ht
    exact .cons (Assignments.alike_fragment (h _ _ hvalues hvalues') hf hg) .nil
  | filter h =>
    simp only [Step.clause?, bind_eq_ok_iff] at hs ht
    obtain ⟨tree, htree, hclause⟩ := hs
    obtain ⟨other, hother, hclause'⟩ := ht
    exact alike_filterClause (h _ _ htree hother) hclause hclause'
  | group fields =>
    cases fields <;> cases hs <;> cases ht
    · exact .nil
    · exact .cons (Fragment.alike_names _ (_ :: _)) .nil
  | order items =>
    have hfields := linked_names (R := R) (items.map OrderItem.field)
    rw [List.map_map] at hfields
    cases items <;> cases hs <;> cases ht
    · exact .nil
    · exact .cons ⟨rfl, hfields⟩ .nil
  | limit h =>
    cases hs
    cases ht
    cases h with
    | none => exact .nil
    | some h => exact .cons ⟨rfl, .cons (.value h) .nil⟩ .nil
  | offset h =>
    cases hs
    cases ht
    cases h with
    | none => exact .nil
    | some h => exact .cons ⟨rfl, .cons (.value h) .nil⟩ .nil
  | rebind executor other =>
    cases hs
    cases ht
    exact .nil

/-! ## Programs -/

namespace Query

theorem alike_step {s t : Step} (h : s.Alike R t) {q q' r r' : Query} (hs : q.step s = .ok r)
    (ht : q'.step t = .ok r') : List.Forall₂ (Fragment.Alike R) s.fragments t.fragments := by
  obtain ⟨_, clause, -, hclause, -⟩ := step_eq_ok_iff.1 hs
  obtain ⟨_, clause', -, hclause', -⟩ := step_eq_ok_iff.1 ht
  exact Step.alike_fragments h hclause hclause'

theorem alike_steps {ss ts : List Step} (h : List.Forall₂ (Step.Alike R) ss ts) {q q' r r' : Query}
    (hs : q.steps ss = .ok r) (ht : q'.steps ts = .ok r') :
    List.Forall₂ (Fragment.Alike R) (ss.flatMap Step.fragments) (ts.flatMap Step.fragments) := by
  induction h generalizing q q' with
  | nil => exact .nil
  | cons h _ ih =>
    obtain ⟨q₁, hstep, hrest⟩ := steps_cons_eq_ok_iff.1 hs
    obtain ⟨q₂, hstep', hrest'⟩ := steps_cons_eq_ok_iff.1 ht
    rw [List.flatMap_cons, List.flatMap_cons]
    exact List.rel_append (alike_step h hstep hstep') (ih hrest hrest')

end Query

/-- Programs that differ in nothing but their values build statements that do. -/
theorem Builder.alike_build {b b' : Builder} {start start' : Start} {steps steps' : List Step}
    {q q' : Query} (hs : start.Alike R start') (hss : List.Forall₂ (Step.Alike R) steps steps')
    (h : b.build start steps = .ok q) (h' : b'.build start' steps' = .ok q') :
    q.statement.Alike R q'.statement := by
  have hstatement := Program.statement_run (p := ⟨start, steps⟩) h
  have hstatement' := Program.statement_run (p := ⟨start', steps'⟩) h'
  obtain ⟨q₀, hq₀, hsteps⟩ := build_eq_ok_iff.1 h
  obtain ⟨q₀', hq₀', hsteps'⟩ := build_eq_ok_iff.1 h'
  obtain ⟨clauses, hclauses, -⟩ := start_eq_ok_iff.1 hq₀
  obtain ⟨clauses', hclauses', -⟩ := start_eq_ok_iff.1 hq₀'
  rw [hstatement, hstatement']
  exact .join " " (List.rel_append (Start.alike_fragments hs hclauses hclauses')
    (Query.alike_steps hss hsteps hsteps'))

/-- Values never reach the text. Two programs make the same calls, with values of the one that
correspond to those of the other in any way at all: if both succeed, then at every stage their texts
are the same and their parameters are equally many, and at each place both have the same name, or
values that correspond. -/
theorem sql_independent_of_values {b b' : Builder} {start start' : Start}
    {steps steps' : List Step} {q q' : Query} (hs : start.Alike R start')
    (hss : List.Forall₂ (Step.Alike R) steps steps') (h : b.build start steps = .ok q)
    (h' : b'.build start' steps' = .ok q') (n : Nat) :
    ∃ r r', b.build start (steps.take n) = .ok r ∧ b'.build start' (steps'.take n) = .ok r' ∧
      r.statement.sql = r'.statement.sql ∧
      r.statement.params.length = r'.statement.params.length ∧
      List.Forall₂ (Linked R) r.statement.params r'.statement.params := by
  obtain ⟨r, hr⟩ := Builder.exists_build_take h n
  obtain ⟨r', hr'⟩ := Builder.exists_build_take h' n
  have halike := Builder.alike_build hs (List.forall₂_take n hss) hr hr'
  exact ⟨r, r', hr, hr', halike.sql, halike.params.length_eq, halike.params⟩

/-- The users whose name contains a text, and who are of one of two ages or ranked by the first,
up to a number. -/
def search (part : String) (age other : Int64) (count : UInt64) : List Step :=
  [.source "users" none,
   .filter (.ready [.column "name" (.ops [.like false (.contains part)]),
     .group .or [[.column "age" (.oneOf [.int age, .int other])], [.raw "rank = ?" [.int age]]]]),
   .limit (some count)]

/-- The values of one search beside those of another. -/
def exchanged : List (Value × Value) :=
  [(.text "ann", .text "x OR 1 = 1"), (.int 30, .int 30), (.int 40, .int 0), (.uint 10, .uint 1)]

theorem sql_of_search :
    List.Forall₂ (Step.Alike fun v w => (v, w) ∈ exchanged) (search "ann" 30 40 10)
      (search "x OR 1 = 1" 30 0 1) ∧
    ∃ r r', (Builder.mk none).build (.count "*" none) (search "ann" 30 40 10) = .ok r ∧
      (Builder.mk none).build (.count "*" none) (search "x OR 1 = 1" 30 0 1) = .ok r' ∧
      r.statement.sql
        = "SELECT COUNT(*) FROM ?? WHERE name LIKE ? AND (age IN (?, ?)) OR (rank = ?) LIMIT ?" ∧
      r.statement.sql = r'.statement.sql ∧
      r.statement.params.length = r'.statement.params.length ∧
      List.Forall₂ (Linked fun v w => (v, w) ∈ exchanged) r.statement.params
        r'.statement.params := by
  have hname : (Value.text "ann", Value.text "x OR 1 = 1") ∈ exchanged := by simp [exchanged]
  have hage : (Value.int 30, Value.int 30) ∈ exchanged := by simp [exchanged]
  have hother : (Value.int 40, Value.int 0) ∈ exchanged := by simp [exchanged]
  have hcount : (Value.uint 10, Value.uint 1) ∈ exchanged := by simp [exchanged]
  have hsteps : List.Forall₂ (Step.Alike fun v w => (v, w) ∈ exchanged) (search "ann" 30 40 10)
      (search "x OR 1 = 1" 30 0 1) := by
    refine .cons (.source _ _) (.cons (.filter ?_) (.cons (.limit (.some hcount)) .nil))
    rintro _ _ ⟨⟩ ⟨⟩
    exact .cons (.column _ (.ops (.cons (.like _ (.contains hname)) .nil)))
      (.cons (.group .or (.cons (.cons (.column _ (.oneOf (.cons hage (.cons hother .nil)))) .nil)
        (.cons (.cons (.raw _ (.cons hage .nil)) .nil) .nil))) .nil)
  obtain ⟨q, hq, hsql⟩ : ∃ q,
      (Builder.mk none).build (.count "*" none) (search "ann" 30 40 10) = .ok q ∧
      q.statement.sql
        = "SELECT COUNT(*) FROM ?? WHERE name LIKE ? AND (age IN (?, ?)) OR (rank = ?) LIMIT ?" :=
    ⟨_, rfl, by decide⟩
  obtain ⟨q', hq'⟩ : ∃ q',
      (Builder.mk none).build (.count "*" none) (search "x OR 1 = 1" 30 0 1) = .ok q' := ⟨_, rfl⟩
  obtain ⟨r, r', hr, hr', htext, hlength, hlinked⟩ :=
    sql_independent_of_values (.count "*" none) hsteps hq hq' 3
  -- three calls are the whole search
  obtain rfl : q = r := Except.ok.inj (hq.symm.trans hr)
  exact ⟨hsteps, q, r', hq, hr', hsql, htext, hlength, hlinked⟩

end Sqlwright
