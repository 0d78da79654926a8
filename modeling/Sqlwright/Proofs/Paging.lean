import Sqlwright.Proofs.Appending

/-!
# Paging

A run calls for a limit at most once, and for an offset at most once and only behind the limit. But
a limit may be called for without a number, and then there is no LIMIT clause: an OFFSET stands
directly behind its LIMIT unless the limit of the run was left out, and then it stands alone
(`offset_alone_iff`). Finding rows leaves out the offset together with the limit.
-/

namespace Sqlwright

/-- The clause of a limit. -/
def limitFragment (n : UInt64) : Fragment := ⟨"LIMIT ?", [.uint n]⟩

/-- The clause of an offset. -/
def offsetFragment (n : UInt64) : Fragment := ⟨"OFFSET ?", [.uint n]⟩

/-- Whether a call is for a limit or an offset. -/
def Step.isPaging : Step → Bool
  | .limit _ | .offset _ => true
  | _ => false

/-- What stands in a slot that a number may have been given for. -/
def Fragment.ofNumber (fragment : UInt64 → Fragment) (number : Option UInt64) : Fragment :=
  (number.map fragment).getD .empty

/-- The part of a statement in front of its limit. -/
def Clauses.body (c : Clauses) : Statement := c.placeAll Slot.limit.before .empty

namespace Stage

/-- A call for a limit leaves the stages in front of it, a call for an offset follows the limit, and
no other call leads past the limit. -/
theorem paging_of_next? {stage after : Stage} {kind : StepKind}
    (h : stage.next? kind = some after) :
    kind = .limit ∧ stage.last.index < Slot.limit.index ∧ after.last = .limit ∨
    kind = .offset ∧ stage.last = .limit ∧ after = .paged ∨
    kind ≠ .limit ∧ kind ≠ .offset ∧ (after = stage ∨ after.last.index < Slot.limit.index) := by
  cases stage <;> cases kind <;> cases h <;> decide

end Stage

namespace Query

/-- A statement has a clause in a slot. -/
def Has (q : Query) (s : Slot) : Prop := (q.clauses.slot s).isBlank = false

instance (q : Query) (s : Slot) : Decidable (q.Has s) :=
  inferInstanceAs (Decidable ((q.clauses.slot s).isBlank = false))

/-- A call leaves every slot but its own as it is. -/
theorem slot_step_of_ne {q q' : Query} {s : Step} (h : q.step s = .ok q') {slot : Slot}
    (hs : s.kind.slot? ≠ some slot) : q'.clauses.slot slot = q.clauses.slot slot := by
  obtain ⟨stage, clause, -, hclause, rfl⟩ := step_eq_ok_iff.1 h
  cases clause with
  | none => rfl
  | some clause =>
    obtain ⟨hslot, -⟩ := Step.slot_of_clause? hclause
    have hne : slot ≠ clause.1 := by
      rintro rfl
      exact hs hslot
    exact Clauses.slot_add_of_ne _ hne _

/-! ## The paging calls of a run -/

/-- What the paging calls of a run have done to its statement. -/
inductive Paged (q : Query) : List Step → Prop where
  | unpaged (stage : q.stage.last.index < Slot.limit.index)
      (limit : q.clauses.slot .limit = .empty) (offset : q.clauses.slot .offset = .empty) :
      Paged q []
  | limited (count : Option UInt64) (stage : q.stage.last = .limit)
      (limit : q.clauses.slot .limit = .ofNumber limitFragment count)
      (offset : q.clauses.slot .offset = .empty) : Paged q [.limit count]
  | offset (count amount : Option UInt64) (stage : q.stage = .paged)
      (limit : q.clauses.slot .limit = .ofNumber limitFragment count)
      (offset : q.clauses.slot .offset = .ofNumber offsetFragment amount) :
      Paged q [.limit count, .offset amount]

/-- The slot of a call with a number. -/
theorem slot_step_limit {q q' : Query} {count : Option UInt64}
    (h : q.step (.limit count) = .ok q') (hq : q.clauses.slot .limit = .empty) :
    q'.clauses.slot .limit = .ofNumber limitFragment count := by
  obtain ⟨stage, clause, -, hclause, rfl⟩ := step_eq_ok_iff.1 h
  cases hclause
  cases count with
  | none => exact hq
  | some n => exact Clauses.slot_put_self ..

theorem slot_step_offset {q q' : Query} {amount : Option UInt64}
    (h : q.step (.offset amount) = .ok q') (hq : q.clauses.slot .offset = .empty) :
    q'.clauses.slot .offset = .ofNumber offsetFragment amount := by
  obtain ⟨stage, clause, -, hclause, rfl⟩ := step_eq_ok_iff.1 h
  cases hclause
  cases amount with
  | none => exact hq
  | some n => exact Clauses.slot_put_self ..

/-- A call that is not for a limit or an offset changes nothing about the page. -/
theorem Paged.of_other {q q' : Query} {calls : List Step} (hp : q.Paged calls)
    (hl : q'.clauses.slot .limit = q.clauses.slot .limit)
    (ho : q'.clauses.slot .offset = q.clauses.slot .offset)
    (hle : q.stage.last.index ≤ q'.stage.last.index)
    (hs : q'.stage = q.stage ∨ q'.stage.last.index < Slot.limit.index) : q'.Paged calls := by
  cases hp with
  | unpaged stage limit offset =>
    refine .unpaged ?_ (hl.trans limit) (ho.trans offset)
    rcases hs with hs | hs
    · rw [hs]
      exact stage
    · exact hs
  | limited count stage limit offset =>
    have hsame : q'.stage = q.stage := by
      refine hs.resolve_right fun hlt => ?_
      rw [stage] at hle
      omega
    exact .limited count (by rw [hsame, stage]) (hl.trans limit) (ho.trans offset)
  | offset count amount stage limit offset =>
    have hsame : q'.stage = q.stage := by
      refine hs.resolve_right fun hlt => ?_
      have hbehind : Slot.limit.index < Stage.paged.last.index := by decide
      rw [stage] at hle
      omega
    exact .offset count amount (hsame.trans stage) (hl.trans limit) (ho.trans offset)

/-- A limit comes once, since it leaves the stages in front of it. -/
theorem Paged.step_limit {q q' : Query} {calls : List Step} {count : Option UInt64}
    (hp : q.Paged calls) (h : q.step (.limit count) = .ok q')
    (hbefore : q.stage.last.index < Slot.limit.index) (hafter : q'.stage.last = .limit) :
    q'.Paged (calls ++ [.limit count]) := by
  cases hp with
  | unpaged stage limit offset =>
    refine .limited count hafter (slot_step_limit h limit) ?_
    rw [slot_step_of_ne h (by simp [Step.kind, StepKind.slot?]), offset]
  | limited _ stage => rw [stage] at hbefore; omega
  | offset _ _ stage => rw [stage] at hbefore; exact absurd hbefore (by decide)

/-- An offset comes once, since it leaves the stage of the limit. -/
theorem Paged.step_offset {q q' : Query} {calls : List Step} {amount : Option UInt64}
    (hp : q.Paged calls) (h : q.step (.offset amount) = .ok q')
    (hbefore : q.stage.last = .limit) (hafter : q'.stage = .paged) :
    q'.Paged (calls ++ [.offset amount]) := by
  cases hp with
  | unpaged stage => rw [hbefore] at stage; omega
  | limited count stage limit offset =>
    refine .offset count amount hafter ?_ (slot_step_offset h offset)
    rw [slot_step_of_ne h (by simp [Step.kind, StepKind.slot?]), limit]
  | offset _ _ stage => rw [stage] at hbefore; cases hbefore

theorem isPaging_of_other {s : Step} (hl : s.kind ≠ .limit) (ho : s.kind ≠ .offset) :
    s.isPaging = false ∧ s.kind.slot? ≠ some .limit ∧ s.kind.slot? ≠ some .offset := by
  cases s <;> simp_all [Step.kind, StepKind.slot?, Step.isPaging]

theorem Paged.step {q q' : Query} {calls : List Step} {s : Step} (hp : q.Paged calls)
    (h : q.step s = .ok q') : q'.Paged (calls ++ [s].filter Step.isPaging) := by
  have hnext : q.stage.next? s.kind = some q'.stage := by
    obtain ⟨stage, clause, hnext, -, rfl⟩ := step_eq_ok_iff.1 h
    exact hnext
  rcases Stage.paging_of_next? hnext with ⟨hkind, hbefore, hafter⟩ | ⟨hkind, hbefore, hafter⟩ |
    ⟨hl, ho, hs⟩
  · cases s with
    | limit count => exact hp.step_limit h hbefore hafter
    | _ => cases hkind
  · cases s with
    | offset amount => exact hp.step_offset h hbefore hafter
    | _ => cases hkind
  · obtain ⟨hnone, hlimit, hoffset⟩ := isPaging_of_other hl ho
    rw [List.filter_cons_of_neg (by simp [hnone]), List.filter_nil, List.append_nil]
    exact hp.of_other (slot_step_of_ne h hlimit) (slot_step_of_ne h hoffset)
      (Stage.last_le_of_next? hnext) hs

theorem Paged.steps {q r : Query} {calls ss : List Step} (hp : q.Paged calls)
    (h : q.steps ss = .ok r) : r.Paged (calls ++ ss.filter Step.isPaging) := by
  induction ss generalizing q calls with
  | nil =>
    cases h
    simpa using hp
  | cons s ss ih =>
    obtain ⟨q', hs, hss⟩ := steps_cons_eq_ok_iff.1 h
    have hrest := ih (hp.step hs) hss
    rw [List.append_assoc, ← List.filter_append] at hrest
    exact hrest

end Query

/-- No statement is opened with a page. -/
theorem Builder.paged_start {b : Builder} {s : Start} {q : Query} (h : b.start s = .ok q) :
    q.Paged [] := by
  obtain ⟨hq, -, -⟩ := Builder.statement_start h
  have hstage : q.stage.last.index < Slot.limit.index := by
    obtain ⟨clauses, -, rfl⟩ := Builder.start_eq_ok_iff.1 h
    show s.stage.last.index < Slot.limit.index
    cases s <;> simp only [Start.stage] <;> decide
  have hbehind : Slot.limit.index < Slot.offset.index := by decide
  exact .unpaged hstage (hq.ahead .limit hstage) (hq.ahead .offset (by omega))

theorem Builder.paged_build {b : Builder} {start : Start} {steps : List Step} {q : Query}
    (h : b.build start steps = .ok q) : q.Paged (steps.filter Step.isPaging) := by
  obtain ⟨q₀, hstart, hsteps⟩ := Builder.build_eq_ok_iff.1 h
  exact (Builder.paged_start hstart).steps hsteps

/-! ## The page of a statement -/

namespace Clauses

theorem assemble_eq_page (c : Clauses) :
    c.assemble = place (place c.body .limit (c.slot .limit)) .offset (c.slot .offset) := rfl

theorem Filled.isBlank_body {c : Clauses} {last : Slot} (h : c.Filled last) :
    c.body.isBlank = false := by
  obtain ⟨s, hs, hhead⟩ := h.head
  exact isBlank_placeAll (.inr ⟨s, Slot.mem_before_of_isHead hs rfl, hhead⟩)

end Clauses

namespace Query

theorem has_ofNumber_iff {q : Query} {s : Slot} {fragment : UInt64 → Fragment}
    {number : Option UInt64} (hf : ∀ n, (fragment n).isBlank = false)
    (h : q.clauses.slot s = .ofNumber fragment number) : q.Has s ↔ ∃ n, number = some n := by
  rw [Has, h]
  cases number with
  | none => simp [Fragment.ofNumber, Fragment.isBlank, Fragment.empty]
  | some n => simp [Fragment.ofNumber, hf n]

theorem not_has_of_empty {q : Query} {s : Slot} (h : q.clauses.slot s = .empty) : ¬q.Has s := by
  rw [Has, h]
  decide

/-- An offset behind its limit. -/
theorem statement_of_page {q : Query} (hq : q.InOrder) {n m : UInt64}
    (hl : q.clauses.slot .limit = limitFragment n)
    (ho : q.clauses.slot .offset = offsetFragment m) :
    q.statement = Fragment.join " " [q.clauses.body, limitFragment n, offsetFragment m] := by
  have hbody : q.clauses.body.isBlank = false := Clauses.Filled.isBlank_body hq
  have hlimit : (limitFragment n).isBlank = false := rfl
  have hoffset : (offsetFragment m).isBlank = false := rfl
  rw [statement, Clauses.assemble_eq_page, hl, ho, Clauses.place_eq_join hbody rfl hlimit,
    Clauses.place_eq_join (Fragment.isBlank_join_pair hlimit) rfl hoffset,
    Fragment.join_join_cons]
  rfl

/-- An offset without a limit. -/
theorem statement_of_lone_offset {q : Query} (hq : q.InOrder) {m : UInt64}
    (hl : q.clauses.slot .limit = .empty) (ho : q.clauses.slot .offset = offsetFragment m) :
    q.statement = Fragment.join " " [q.clauses.body, offsetFragment m] := by
  have hbody : q.clauses.body.isBlank = false := Clauses.Filled.isBlank_body hq
  have hoffset : (offsetFragment m).isBlank = false := rfl
  rw [statement, Clauses.assemble_eq_page, hl, ho, Clauses.place_empty,
    Clauses.place_eq_join hbody rfl hoffset]

end Query

/-- Where the offset of a run stands: behind the limit, or behind the rest of the statement. -/
theorem Builder.statement_of_offset {b : Builder} {start : Start} {steps : List Step} {q : Query}
    (h : b.build start steps = .ok q) (ho : q.Has .offset) :
    (q.Has .limit → ∃ n m, Step.limit (some n) ∈ steps ∧ Step.offset (some m) ∈ steps ∧
      q.statement = Fragment.join " " [q.clauses.body, limitFragment n, offsetFragment m]) ∧
    (¬q.Has .limit → ∃ m, Step.offset (some m) ∈ steps ∧
      q.statement = Fragment.join " " [q.clauses.body, offsetFragment m]) := by
  have hq := Builder.inOrder_build h
  have hmem : ∀ s ∈ steps.filter Step.isPaging, s ∈ steps := fun s hs => (List.mem_filter.1 hs).1
  have hcalls := Builder.paged_build h
  generalize steps.filter Step.isPaging = calls at hcalls hmem
  cases hcalls with
  | unpaged stage limit offset => exact absurd ho (Query.not_has_of_empty offset)
  | limited count stage limit offset => exact absurd ho (Query.not_has_of_empty offset)
  | offset count amount stage limit offset =>
    obtain ⟨m, rfl⟩ := (Query.has_ofNumber_iff (fun _ => rfl) offset).1 ho
    have hm : Step.offset (some m) ∈ steps := hmem _ (by simp)
    cases count with
    | none =>
      have hnone := Query.not_has_of_empty limit
      exact ⟨fun hl => absurd hl hnone, fun _ =>
        ⟨m, hm, Query.statement_of_lone_offset hq limit offset⟩⟩
    | some n =>
      have hl : q.Has .limit := (Query.has_ofNumber_iff (fun _ => rfl) limit).2 ⟨n, rfl⟩
      exact ⟨fun _ => ⟨n, m, hmem _ (by simp), hm, Query.statement_of_page hq limit offset⟩,
        fun hnone => absurd hl hnone⟩

/-- An offset is alone exactly if the run left the number of its limit out. -/
theorem Builder.lone_offset_iff {b : Builder} {start : Start} {steps : List Step} {q : Query}
    (h : b.build start steps = .ok q) :
    q.Has .offset ∧ ¬q.Has .limit ↔
      Step.limit none ∈ steps ∧ ∃ m, Step.offset (some m) ∈ steps := by
  have hmem : ∀ {s : Step}, s.isPaging = true → (s ∈ steps ↔ s ∈ steps.filter Step.isPaging) :=
    fun hs => ⟨fun hm => List.mem_filter.2 ⟨hm, hs⟩, fun hm => (List.mem_filter.1 hm).1⟩
  have hcalls := Builder.paged_build h
  rw [hmem rfl]
  simp only [hmem (s := .offset (some _)) rfl]
  generalize steps.filter Step.isPaging = calls at hcalls
  cases hcalls with
  | unpaged stage limit offset => simp [Query.not_has_of_empty offset]
  | limited count stage limit offset => simp [Query.not_has_of_empty offset]
  | offset count amount stage limit offset =>
    rw [Query.has_ofNumber_iff (fun _ => rfl) limit, Query.has_ofNumber_iff (fun _ => rfl) offset]
    cases count <;> cases amount <;> simp

/-- Finding rows calls for an offset only with a limit. -/
theorem Table.has_limit_findAll {t : Table} {fields : Input SelectList}
    {condition : Option (Input Condition.Tree)} {order : List OrderItem}
    {limit offset : Option UInt64} {q : Query}
    (h : t.findAll fields condition order limit offset = .ok q) (ho : q.Has .offset) :
    q.Has .limit := by
  obtain ⟨tree, hbuild⟩ : ∃ tree, t.builder.build (.select fields)
      [t.sourceStep, filterStep tree, .order order, .limit limit,
        .offset (limit.bind fun _ => offset)] = .ok q := by
    cases condition with
    | none => exact ⟨[], h⟩
    | some condition =>
      obtain ⟨tree, -, hbuild⟩ := bind_eq_ok_iff.1 h
      exact ⟨tree, hbuild⟩
  by_cases hl : q.Has .limit
  · exact hl
  · -- the limit was left out, and with it the offset
    obtain ⟨hlimit, m, hoffset⟩ := (Builder.lone_offset_iff hbuild).1 ⟨ho, hl⟩
    have hnone : limit = none := by simpa [sourceStep, filterStep, eq_comm] using hlimit
    rw [hnone] at hoffset
    simp [sourceStep, filterStep] at hoffset

/-- An OFFSET clause stands directly behind the LIMIT clause, or directly behind the rest of the
statement where there is no LIMIT clause. The latter are exactly the runs that leave the number of
their limit out and give one for their offset; finding rows is none of them. -/
theorem offset_alone_iff (b : Builder) (t : Table) :
    (∀ (start : Start) (steps : List Step) (q : Query), b.build start steps = .ok q →
      (q.Has .offset → q.Has .limit → ∃ n m,
        Step.limit (some n) ∈ steps ∧ Step.offset (some m) ∈ steps ∧
        q.statement = Fragment.join " " [q.clauses.body, limitFragment n, offsetFragment m]) ∧
      (q.Has .offset → ¬q.Has .limit → ∃ m, Step.offset (some m) ∈ steps ∧
        q.statement = Fragment.join " " [q.clauses.body, offsetFragment m]) ∧
      (q.Has .offset ∧ ¬q.Has .limit ↔
        Step.limit none ∈ steps ∧ ∃ m, Step.offset (some m) ∈ steps)) ∧
    (∀ (fields : Input SelectList) (condition : Option (Input Condition.Tree))
      (order : List OrderItem) (limit offset : Option UInt64) (q : Query),
      t.findAll fields condition order limit offset = .ok q → q.Has .offset → q.Has .limit) := by
  refine ⟨fun start steps q h => ⟨fun ho => ?_, fun ho => ?_, Builder.lone_offset_iff h⟩,
    fun fields condition order limit offset q h => Table.has_limit_findAll h⟩
  · exact (Builder.statement_of_offset h ho).1
  · exact (Builder.statement_of_offset h ho).2

/-- A limit without a number is followed by an offset with one. -/
theorem offset_without_limit :
    ∃ q, (Builder.mk none).build (.select (.ready []))
        [.source "t" none, .limit none, .offset (some 5)] = .ok q ∧
      q.Has .offset ∧ ¬q.Has .limit ∧
      q.statement = ⟨"SELECT * FROM ?? OFFSET ?", [.text "t", .uint 5]⟩ :=
  ⟨_, rfl, rfl, by decide, rfl⟩

theorem offset_behind_limit :
    (∃ q, (Builder.mk none).build (.select (.ready []))
        [.source "t" none, .limit (some 10), .offset (some 20)] = .ok q ∧
      q.Has .offset ∧ q.Has .limit ∧ ∃ n m,
        q.statement = Fragment.join " " [q.clauses.body, limitFragment n, offsetFragment m]) ∧
    ∃ q, Table.users.findAll (.ready []) none [] (some 10) (some 20) = .ok q ∧
      q.Has .offset ∧ q.Has .limit := by
  obtain ⟨q, hq, ho, hl⟩ : ∃ q, (Builder.mk none).build (.select (.ready []))
      [.source "t" none, .limit (some 10), .offset (some 20)] = .ok q ∧
      q.Has .offset ∧ q.Has .limit := ⟨_, rfl, rfl, rfl⟩
  obtain ⟨r, hr, hro⟩ : ∃ r, Table.users.findAll (.ready []) none [] (some 10) (some 20) = .ok r ∧
      r.Has .offset := ⟨_, rfl, rfl⟩
  obtain ⟨hbuild, hfind⟩ := offset_alone_iff ⟨none⟩ .users
  obtain ⟨n, m, -, -, hstatement⟩ := (hbuild _ _ q hq).1 ho hl
  exact ⟨⟨q, hq, ho, hl, n, m, hstatement⟩, r, hr, hro, hfind _ _ _ _ _ r hr hro⟩

end Sqlwright
