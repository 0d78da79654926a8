import Sqlwright.Proofs.Balance
import Sqlwright.Proofs.Run

/-!
# Placeholders and parameters

At every stage of every run, and at every stage that follows an operation on a table, a statement
has as many placeholders as parameters, provided that the caller's own texts have. Clauses that fit
are all that a statement is put together from, and adding one keeps it so; what is assembled from
them is balanced whatever slots are filled.
-/

namespace Sqlwright

open Placeholder Fragment

/-! ## Assembling -/

namespace Clauses

/-- Every slot holds a clause that fits. -/
def Fit (c : Clauses) : Prop := ∀ s, (c.slot s).Fits

theorem fit_empty : empty.Fit := fun _ => fits_empty

theorem fits_extended {old new : Fragment} (ho : old.Fits) (hn : new.Fits) :
    (extended old new).Fits := by
  rw [extended]
  split
  · rename_i hb
    rw [ho.balanced.params_eq_nil hb, String.empty_append]
    exact hn
  · rename_i hb
    refine ⟨ho.balanced.append hn.balanced, ?_⟩
    have hne : old.sql ≠ "" := by simpa [isBlank] using hb
    obtain ⟨c, cs, hc⟩ := List.exists_cons_of_ne_nil (mt String.toList_eq_nil_iff.1 hne)
    have hfront := ho.front
    simpa [hc] using hfront

theorem Fit.add {c : Clauses} (h : c.Fit) {s : Slot} {f : Fragment} (hf : f.Fits) :
    (c.add s f).Fit := by
  intro other
  rw [Clauses.add]
  by_cases hs : other = s
  · subst hs
    split
    · rw [slot_put_self]
      exact fits_extended (h other) hf
    · rw [slot_put_self]
      exact hf
  · split
    · rw [slot_put_of_ne c hs]
      exact h other
    · rw [slot_put_of_ne c hs]
      exact h other

theorem Fit.foldl_add {c : Clauses} (h : c.Fit) {clauses : List Clause}
    (hc : ∀ clause ∈ clauses, clause.2.Fits) :
    (clauses.foldl (fun c clause => c.add clause.1 clause.2) c).Fit := by
  induction clauses generalizing c with
  | nil => exact h
  | cons clause clauses ih =>
    obtain ⟨hclause, hrest⟩ := List.forall_mem_cons.1 hc
    exact ih (h.add hclause) hrest

/-- A clause that fits keeps a statement balanced, with or without a space before it. -/
theorem isBalanced_place {done : Statement} (h : done.IsBalanced) (s : Slot) {f : Fragment}
    (hf : f.Fits) : (place done s f).IsBalanced := by
  rw [place]
  split
  · exact h
  · split
    · -- no space between them, but the clause does not begin with a mark
      rw [IsBalanced, placeholders, count_append hf.front, List.length_append, ← h,
        ← hf.balanced]
      rfl
    · exact h.append hf.balanced

theorem Fit.isBalanced_foldl_place {c : Clauses} (h : c.Fit) (slots : List Slot)
    {done : Statement} (hd : done.IsBalanced) :
    (slots.foldl (fun done s => place done s (c.slot s)) done).IsBalanced := by
  induction slots generalizing done with
  | nil => exact hd
  | cons s slots ih => exact ih (isBalanced_place hd s (h s))

theorem Fit.isBalanced_assemble {c : Clauses} (h : c.Fit) : c.assemble.IsBalanced :=
  h.isBalanced_foldl_place Slot.all isBalanced_empty

end Clauses

/-! ## Runs -/

namespace Query

/-- A call whose texts are balanced adds a clause that fits, or none. -/
theorem fit_step {q q' : Query} {s : Step} (hs : ∀ f ∈ s.callerTexts, f.IsBalanced)
    (hq : q.clauses.Fit) (h : q.step s = .ok q') : q'.clauses.Fit := by
  obtain ⟨stage, clause, -, hclause, rfl⟩ := step_eq_ok_iff.1 h
  cases clause with
  | none => exact hq
  | some clause => exact hq.add (Step.fits_clause? hclause hs)

theorem fit_steps {q r : Query} {ss : List Step}
    (hs : ∀ f ∈ ss.flatMap Step.callerTexts, f.IsBalanced) (hq : q.clauses.Fit)
    (h : q.steps ss = .ok r) : r.clauses.Fit := by
  refine invariant_of_steps (P := fun q => q.clauses.Fit) (fun s hm q q' hfit hstep => ?_) hq h
  exact fit_step (fun f hf => hs f (List.mem_flatMap.2 ⟨s, hm, hf⟩)) hfit hstep

theorem isBalanced_stage {q r : Query} {ss : List Step}
    (hs : ∀ f ∈ ss.flatMap Step.callerTexts, f.IsBalanced) (hq : q.clauses.Fit)
    (h : q.steps ss = .ok r) (n : Nat) :
    ∃ q', q.steps (ss.take n) = .ok q' ∧ q'.statement.IsBalanced := by
  obtain ⟨q', hq'⟩ := exists_steps_take h n
  have htaken : ∀ f ∈ (ss.take n).flatMap Step.callerTexts, f.IsBalanced := by
    intro f hf
    obtain ⟨s, hm, hf⟩ := List.mem_flatMap.1 hf
    exact hs f (List.mem_flatMap.2 ⟨s, List.mem_of_mem_take hm, hf⟩)
  exact ⟨q', hq', (fit_steps htaken hq hq').isBalanced_assemble⟩

end Query

theorem Builder.fit_start {b : Builder} {s : Start} {q : Query}
    (hs : ∀ f ∈ s.callerTexts, f.IsBalanced) (h : b.start s = .ok q) : q.clauses.Fit := by
  obtain ⟨clauses, hclauses, rfl⟩ := Builder.start_eq_ok_iff.1 h
  exact Clauses.fit_empty.foldl_add (Start.fits_clauses hclauses hs)

/-! ## Operations -/

/-- The caller's own texts in a program. -/
def Program.callerTexts (p : Program) : List Fragment :=
  p.start.callerTexts ++ p.steps.flatMap Step.callerTexts

/-- The caller's own texts in the arguments of an operation. -/
def Operation.callerTexts : Operation → List Fragment
  | .select fields => (Start.select fields).callerTexts
  | .findOne fields condition _ =>
    (Start.select fields).callerTexts ++ (Step.filter condition).callerTexts
  | .findAll fields condition _ _ _ =>
    (Start.select fields).callerTexts
      ++ condition.toList.flatMap fun condition => (Step.filter condition).callerTexts
  | .updateOne _ condition _ | .updateAll _ condition _ | .removeOne condition _
  | .remove condition | .patchSingleField _ _ condition _ | .softDeleteOne condition _ _
  | .softDelete condition _ _ => (Step.filter condition).callerTexts
  | .count _ _ | .insertRecord _ _ => []

/-- A condition that was read has the texts of the document it was read from. -/
theorem callerTexts_filterStep {t : Table} {operation : String}
    {condition : Input Condition.Tree} {tree : Condition.Tree}
    (h : t.requireCondition operation condition = .ok tree) :
    (Table.filterStep tree).callerTexts = (Step.filter condition).callerTexts := by
  rw [Table.filterStep, Step.callerTexts, Step.callerTexts, Input.callerTexts,
    Input.callerTexts, (Table.requireCondition_eq_ok_iff.1 h).1]
  rfl

theorem callerTexts_updateProgram {t : Table} {operation : String} {data : Input Assignments}
    {condition : Input Condition.Tree} {options : UpdateOptions} {steps : List Step} {p : Program}
    (h : Operation.updateProgram t operation data condition options steps = .ok p) :
    p.callerTexts = (Step.filter condition).callerTexts ++ steps.flatMap Step.callerTexts := by
  simp only [Operation.updateProgram, bind_eq_ok_iff, pure_eq_ok_iff] at h
  obtain ⟨tree, htree, values, -, rfl⟩ := h
  rw [Program.callerTexts, List.flatMap_cons, callerTexts_filterStep htree]
  rfl

/-- The program of an operation has no texts but those of the operation. -/
theorem callerTexts_program {t : Table} {op : Operation} {p : Program}
    (h : op.program t = .ok p) : p.callerTexts = op.callerTexts := by
  cases op with
  | select fields => cases h; exact List.append_nil _
  | count field label => cases h; rfl
  | findOne fields condition order =>
    simp only [Operation.program, bind_eq_ok_iff, pure_eq_ok_iff] at h
    obtain ⟨tree, htree, rfl⟩ := h
    simp [Program.callerTexts, Operation.callerTexts, callerTexts_filterStep htree,
      Table.sourceStep]
  | findAll fields condition order limit offset =>
    cases condition with
    | none =>
      cases h
      have hempty : (Table.filterStep []).callerTexts = [] := rfl
      simp [Program.callerTexts, Operation.callerTexts, Table.sourceStep, hempty]
    | some condition =>
      simp only [Operation.program, bind_eq_ok_iff, pure_eq_ok_iff] at h
      obtain ⟨tree, htree, rfl⟩ := h
      simp [Program.callerTexts, Operation.callerTexts, callerTexts_filterStep htree,
        Table.sourceStep]
  | updateOne | updateAll | softDeleteOne | softDelete =>
    rw [callerTexts_updateProgram h]
    simp [Operation.callerTexts]
  | insertRecord rows options =>
    simp only [Operation.program, Operation.insertProgram, bind_eq_ok_iff] at h
    obtain ⟨read, -, h⟩ := h
    split at h
    · cases h
    · cases h
      rfl
  | removeOne condition order =>
    simp only [Operation.program, bind_eq_ok_iff, pure_eq_ok_iff] at h
    obtain ⟨tree, htree, rfl⟩ := h
    simp [Program.callerTexts, Operation.callerTexts, callerTexts_filterStep htree,
      Start.callerTexts]
  | remove condition =>
    simp only [Operation.program, bind_eq_ok_iff, pure_eq_ok_iff] at h
    obtain ⟨tree, htree, rfl⟩ := h
    simp [Program.callerTexts, Operation.callerTexts, callerTexts_filterStep htree,
      Start.callerTexts]
  | patchSingleField field value condition options =>
    rw [Operation.program] at h
    split at h
    · cases h
    · rw [callerTexts_updateProgram h]
      simp [Operation.callerTexts]

theorem Program.fit_run {b : Builder} {p : Program} {q : Query}
    (hs : ∀ f ∈ p.callerTexts, f.IsBalanced) (h : b.build p.start p.steps = .ok q) :
    q.clauses.Fit := by
  obtain ⟨hstart, hsteps⟩ := List.forall_mem_append.1 hs
  obtain ⟨q₀, hq₀, hrun⟩ := Builder.build_eq_ok_iff.1 h
  exact Query.fit_steps hsteps (Builder.fit_start hstart hq₀) hrun

/-- At every stage of every program of calls on a builder, and at every stage of whatever follows
an operation on a table, the statement has as many placeholders as parameters, provided that the
caller's own texts have. -/
theorem placeholders_eq_length_params :
    (∀ (b : Builder) (start : Start) (steps : List Step) (q : Query),
      b.build start steps = .ok q →
      (∀ f ∈ start.callerTexts ++ steps.flatMap Step.callerTexts,
        f.placeholders = f.params.length) →
      ∀ n, ∃ q', b.build start (steps.take n) = .ok q' ∧
        q'.statement.placeholders = q'.statement.params.length) ∧
    (∀ (t : Table) (op : Operation) (q₀ q : Query) (steps : List Step),
      op.run t = .ok q₀ → q₀.steps steps = .ok q →
      (∀ f ∈ op.callerTexts ++ steps.flatMap Step.callerTexts,
        f.placeholders = f.params.length) →
      ∀ n, ∃ q', q₀.steps (steps.take n) = .ok q' ∧
        q'.statement.placeholders = q'.statement.params.length) := by
  constructor
  · intro b start steps q h hs n
    obtain ⟨hstart, hsteps⟩ := List.forall_mem_append.1 hs
    obtain ⟨q₀, hq₀, hrun⟩ := Builder.build_eq_ok_iff.1 h
    obtain ⟨q', hq', hbalanced⟩ :=
      Query.isBalanced_stage hsteps (Builder.fit_start hstart hq₀) hrun n
    exact ⟨q', Builder.build_eq_ok_iff.2 ⟨q₀, hq₀, hq'⟩, hbalanced⟩
  · intro t op q₀ q steps hop hrun hs n
    obtain ⟨hoptexts, hsteps⟩ := List.forall_mem_append.1 hs
    obtain ⟨p, hp, hbuild⟩ := Operation.run_eq_ok_iff.1 hop
    rw [← callerTexts_program hp] at hoptexts
    exact Query.isBalanced_stage hsteps (Program.fit_run hoptexts hbuild) hrun n

/-- An expression in the caller's own words, with its label and its parameter. -/
def maximum : Start := .select (.ready [.raw "MAX(?)" (some "m") [.int 3]])

/-- A table, a join, a filter with a caller's predicate that brings its parameter, and a limit. -/
def joinedSteps : List Step :=
  [.source "users" (some "u"), .join .left "orders" (some "o") "u.id = o.user_id",
   .filter (.ready [.column "u.age" (.oneOf [.int 1, .int 2]), .raw "vip = ?" [.bool true]]),
   .limit (some 10)]

theorem placeholders_of_joinedSteps :
    (∃ q, (Builder.mk none).build maximum joinedSteps = .ok q) ∧
    (∀ f ∈ maximum.callerTexts ++ joinedSteps.flatMap Step.callerTexts,
      f.placeholders = f.params.length) ∧
    (∀ n, ∃ q', (Builder.mk none).build maximum (joinedSteps.take n) = .ok q' ∧
      q'.statement.placeholders = q'.statement.params.length) ∧
    ∃ q₀, (Operation.count "id" none).run .users = .ok q₀ ∧
      ∀ n, ∃ q', q₀.steps ((joinedSteps.drop 1).take n) = .ok q' ∧
        q'.statement.placeholders = q'.statement.params.length := by
  obtain ⟨q, hq⟩ : ∃ q, (Builder.mk none).build maximum joinedSteps = .ok q := ⟨_, rfl⟩
  obtain ⟨q₀, hq₀, r, hr⟩ : ∃ q₀, (Operation.count "id" none).run .users = .ok q₀ ∧
      ∃ r, q₀.steps (joinedSteps.drop 1) = .ok r := ⟨_, rfl, _, rfl⟩
  have htexts : ∀ f ∈ maximum.callerTexts ++ joinedSteps.flatMap Step.callerTexts,
      f.placeholders = f.params.length := by decide
  have hrest : ∀ f ∈ (Operation.count "id" none).callerTexts
      ++ (joinedSteps.drop 1).flatMap Step.callerTexts, f.placeholders = f.params.length := by
    decide
  exact ⟨⟨q, hq⟩, htexts, placeholders_eq_length_params.1 _ maximum joinedSteps q hq htexts, q₀,
    hq₀, placeholders_eq_length_params.2 .users (.count "id" none) q₀ r _ hq₀ hr hrest⟩

end Sqlwright
