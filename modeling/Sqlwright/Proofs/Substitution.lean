import Mathlib.Data.List.Chain
import Sqlwright.Proofs.Counting

/-!
# Where the parameters go

A text falls into stretches: runs of marks and the characters between them, each as long as it can
be. This division alone settles what becomes of a parameter. The placeholders of the text take the
parameters one after the other, and what is written in for one is never looked at again, so a
parameter may hold marks (`Placeholder.fill_stretches`). The number of placeholders of a text is
counted by the same division.
-/

namespace Sqlwright

namespace Placeholder

/-! ## Stretches -/

/-- A stretch of a text: characters that are no marks, or a run of marks. -/
inductive Stretch where
  | plain (content : List Char)
  | marks (run : Nat)
  deriving DecidableEq, Repr

namespace Stretch

def chars : Stretch → List Char
  | .plain content => content
  | .marks run => List.replicate run '?'

def isMarks : Stretch → Bool
  | .plain _ => false
  | .marks _ => true

/-- Whether a stretch has characters, and only those of its kind. -/
def IsProper : Stretch → Prop
  | .plain content => content ≠ [] ∧ ∀ c ∈ content, c ≠ '?'
  | .marks run => 0 < run

/-- Whether a stretch is a placeholder: one mark for a value, or two for a name. -/
def isPlaceholder : Stretch → Bool
  | .plain _ => false
  | .marks run => decide (run ≤ 2)

/-- What stands in the place of a stretch. Without a parameter it stays as it is. -/
def shown : Stretch → Option Value → List Char
  | .marks 1, some v => v.literal.toList
  | .marks 2, some v => (nameText v).toList
  | stretch, _ => stretch.chars

theorem shown_none (stretch : Stretch) : stretch.shown none = stretch.chars := by
  unfold shown
  split
  · contradiction
  · contradiction
  · rfl

end Stretch

/-- The stretches of a text: side by side they are the text, and none could be longer, since its
neighbours are of the other kind. -/
structure IsDivision (stretches : List Stretch) (cs : List Char) : Prop where
  chars : stretches.flatMap Stretch.chars = cs
  proper : ∀ s ∈ stretches, s.IsProper
  alternating : stretches.IsChain fun s next => s.isMarks ≠ next.isMarks

theorem isDivision_nil : IsDivision [] [] := ⟨rfl, by simp, .nil⟩

theorem isDivision_cons_iff {s : Stretch} {ss : List Stretch} {cs : List Char} :
    IsDivision (s :: ss) cs ↔ s.IsProper ∧ (∀ next ∈ ss.head?, s.isMarks ≠ next.isMarks) ∧
      ∃ rest, IsDivision ss rest ∧ s.chars ++ rest = cs := by
  constructor
  · rintro ⟨rfl, hproper, hchain⟩
    obtain ⟨hs, hss⟩ := List.forall_mem_cons.1 hproper
    obtain ⟨hnext, hrest⟩ := List.isChain_cons.1 hchain
    exact ⟨hs, hnext, ss.flatMap Stretch.chars, ⟨rfl, hss, hrest⟩, rfl⟩
  · rintro ⟨hs, hnext, rest, ⟨rfl, hproper, hchain⟩, rfl⟩
    exact ⟨rfl, List.forall_mem_cons.2 ⟨hs, hproper⟩, List.isChain_cons.2 ⟨hnext, hchain⟩⟩

/-- Some stretches with a character more in front. -/
def extend (c : Char) : List Stretch → List Stretch
  | [] => [if c = '?' then .marks 1 else .plain [c]]
  | .plain content :: ss =>
    if c = '?' then .marks 1 :: .plain content :: ss else .plain (c :: content) :: ss
  | .marks run :: ss =>
    if c = '?' then .marks (run + 1) :: ss else .plain [c] :: .marks run :: ss

/-- The stretches of a text. -/
def divide (cs : List Char) : List Stretch := cs.foldr extend []

theorem isDivision_extend {ss : List Stretch} {cs : List Char} (h : IsDivision ss cs) (c : Char) :
    IsDivision (extend c ss) (c :: cs) := by
  unfold extend
  by_cases hc : c = '?'
  · subst hc
    split
    · exact isDivision_cons_iff.2 ⟨Nat.one_pos, by simp, cs, h, rfl⟩
    · exact isDivision_cons_iff.2 ⟨Nat.one_pos, by simp [Stretch.isMarks], cs, h, rfl⟩
    · -- the run of marks in front is one longer
      obtain ⟨-, hnext, rest, hrest, rfl⟩ := isDivision_cons_iff.1 h
      exact isDivision_cons_iff.2 ⟨Nat.succ_pos _, hnext, rest, hrest, rfl⟩
  · have hproper : (Stretch.plain [c]).IsProper := by simp [Stretch.IsProper, hc]
    simp only [if_neg hc]
    split
    · exact isDivision_cons_iff.2 ⟨hproper, by simp, cs, h, rfl⟩
    · obtain ⟨⟨-, hplain⟩, hnext, rest, hrest, rfl⟩ := isDivision_cons_iff.1 h
      exact isDivision_cons_iff.2
        ⟨⟨by simp, List.forall_mem_cons.2 ⟨hc, hplain⟩⟩, hnext, rest, hrest, rfl⟩
    · exact isDivision_cons_iff.2 ⟨hproper, by simp [Stretch.isMarks], cs, h, rfl⟩

/-- Every text falls into stretches. -/
theorem isDivision_divide (cs : List Char) : IsDivision (divide cs) cs := by
  induction cs with
  | nil => exact isDivision_nil
  | cons c cs ih => exact isDivision_extend ih c

/-- Behind a run of marks comes no mark. -/
theorem IsDivision.head?_ne_of_marks {s : Stretch} {ss : List Stretch} {rest : List Char}
    (h : IsDivision ss rest) (hnext : ∀ next ∈ ss.head?, s.isMarks ≠ next.isMarks)
    (hs : s.isMarks = true) : rest.head? ≠ some '?' := by
  cases ss with
  | nil =>
    obtain ⟨rfl, -, -⟩ := h
    simp
  | cons next ss =>
    obtain ⟨hproper, -, behind, -, rfl⟩ := isDivision_cons_iff.1 h
    cases next with
    | marks run => exact absurd hs (hnext _ rfl)
    | plain content =>
      obtain ⟨c, cs, rfl⟩ := List.exists_cons_of_ne_nil hproper.1
      simpa [Stretch.chars] using hproper.2 c (by simp)

/-! ## One stretch -/

theorem countFrom_replicate_append (run n : Nat) (cs : List Char) :
    countFrom run (List.replicate n '?' ++ cs) = countFrom (run + n) cs := by
  induction n generalizing run with
  | zero => rfl
  | succ n ih =>
    rw [List.replicate_succ, List.cons_append, countFrom, if_pos rfl, ih, Nat.add_right_comm,
      Nat.add_assoc]

theorem fillFrom_replicate_append (run n : Nat) (cs : List Char) (params : List Value) :
    fillFrom run (List.replicate n '?' ++ cs) params = fillFrom (run + n) cs params := by
  induction n generalizing run with
  | zero => rfl
  | succ n ih =>
    rw [List.replicate_succ, List.cons_append, fillFrom, if_pos rfl, ih, Nat.add_right_comm,
      Nat.add_assoc]

/-- A run of marks is over where no mark follows. -/
theorem countFrom_of_head?_ne {cs : List Char} (h : cs.head? ≠ some '?') (run : Nat) :
    countFrom run cs = weight run + countFrom 0 cs := by
  cases cs with
  | nil => rfl
  | cons c cs =>
    have hc : c ≠ '?' := by simpa using h
    have hnone : weight 0 = 0 := rfl
    rw [countFrom_of_ne run hc, countFrom_of_ne 0 hc, hnone, Nat.zero_add]

theorem fillFrom_of_head?_ne {cs : List Char} (h : cs.head? ≠ some '?') (run : Nat)
    (params : List Value) :
    fillFrom run cs params = (close run params).1 ++ fillFrom 0 cs (close run params).2 := by
  cases cs with
  | nil => simp [fillFrom, close_zero]
  | cons c cs =>
    have hc : c ≠ '?' := by simpa using h
    rw [fillFrom_zero_cons hc, fillFrom, if_neg hc]

theorem fillFrom_plain_append {content : List Char} (h : ∀ c ∈ content, c ≠ '?')
    (cs : List Char) (params : List Value) :
    fillFrom 0 (content ++ cs) params = content ++ fillFrom 0 cs params := by
  induction content with
  | nil => rfl
  | cons c content ih =>
    obtain ⟨hc, hcontent⟩ := List.forall_mem_cons.1 h
    rw [List.cons_append, fillFrom_zero_cons hc, ih hcontent, List.cons_append]

/-- The parameter that a stretch takes. -/
def Stretch.taken (s : Stretch) (params : List Value) : Option Value :=
  if s.isPlaceholder then params.head? else none

/-- The parameters that a stretch leaves. -/
def Stretch.left (s : Stretch) (params : List Value) : List Value :=
  if s.isPlaceholder then params.tail else params

theorem close_marks {run : Nat} (h : 0 < run) (params : List Value) :
    close run params
      = ((Stretch.marks run).shown ((Stretch.marks run).taken params),
        (Stretch.marks run).left params) := by
  match run, params with
  | 1, [] | 2, [] | 1, _ :: _ | 2, _ :: _ => rfl
  | _ + 3, [] | _ + 3, _ :: _ => rfl

/-- What a stretch counts for. -/
theorem countFrom_stretch {s : Stretch} (hs : s.IsProper) {rest : List Char}
    (hrest : s.isMarks = true → rest.head? ≠ some '?') :
    countFrom 0 (s.chars ++ rest) = (if s.isPlaceholder then 1 else 0) + countFrom 0 rest := by
  cases s with
  | plain content =>
    rw [Stretch.chars, countFrom_unmarked_append hs.2]
    exact (Nat.zero_add _).symm
  | marks run =>
    have hpos : 0 < run := hs
    rw [Stretch.chars, countFrom_replicate_append, Nat.zero_add,
      countFrom_of_head?_ne (hrest rfl), weight, Stretch.isPlaceholder]
    simp only [decide_eq_true_eq]
    congr 1
    by_cases hrun : run ≤ 2
    · rw [if_pos hrun, if_pos (by omega)]
    · rw [if_neg hrun, if_neg (by omega)]

/-- What a stretch is filled with. -/
theorem fillFrom_stretch {s : Stretch} (hs : s.IsProper) {rest : List Char}
    (hrest : s.isMarks = true → rest.head? ≠ some '?') (params : List Value) :
    fillFrom 0 (s.chars ++ rest) params
      = s.shown (s.taken params) ++ fillFrom 0 rest (s.left params) := by
  cases s with
  | plain content => exact fillFrom_plain_append hs.2 rest params
  | marks run =>
    rw [Stretch.chars, fillFrom_replicate_append, Nat.zero_add,
      fillFrom_of_head?_ne (hrest rfl), close_marks hs]

/-! ## All stretches -/

/-- The stretches with the parameters that take their places. The parameter of a placeholder has as
many parameters in front of it as the placeholder has placeholders. -/
def assigned (ss : List Stretch) (params : List Value) : List (Stretch × Option Value) :=
  ss.mapIdx fun i s =>
    (s, if s.isPlaceholder then params[(ss.take i).countP Stretch.isPlaceholder]? else none)

theorem assigned_cons (s : Stretch) (ss : List Stretch) (params : List Value) :
    assigned (s :: ss) params = (s, s.taken params) :: assigned ss (s.left params) := by
  have hrest : ∀ k, params[k + if s.isPlaceholder then 1 else 0]? = (s.left params)[k]? := by
    intro k
    rw [Stretch.left]
    split
    · exact List.getElem?_tail.symm
    · rfl
  rw [assigned, List.mapIdx_cons, assigned]
  congr 1
  · rw [Stretch.taken, List.head?_eq_getElem?]
    rfl
  · simp only [List.take_succ_cons, List.countP_cons, hrest]

/-- A text is filled stretch by stretch. -/
theorem fillFrom_division {ss : List Stretch} {cs : List Char} (h : IsDivision ss cs)
    (params : List Value) :
    fillFrom 0 cs params = (assigned ss params).flatMap fun e => e.1.shown e.2 := by
  induction ss generalizing cs params with
  | nil =>
    obtain ⟨rfl, -, -⟩ := h
    simp [fillFrom, close_zero, assigned]
  | cons s ss ih =>
    obtain ⟨hs, hnext, rest, hrest, rfl⟩ := isDivision_cons_iff.1 h
    rw [fillFrom_stretch hs (hrest.head?_ne_of_marks hnext), ih hrest, assigned_cons,
      List.flatMap_cons]

/-- The placeholders that are counted are those of the stretches. -/
theorem countFrom_division {ss : List Stretch} {cs : List Char} (h : IsDivision ss cs) :
    countFrom 0 cs = ss.countP Stretch.isPlaceholder := by
  induction ss generalizing cs with
  | nil =>
    obtain ⟨rfl, -, -⟩ := h
    rfl
  | cons s ss ih =>
    obtain ⟨hs, hnext, rest, hrest, rfl⟩ := isDivision_cons_iff.1 h
    rw [countFrom_stretch hs (hrest.head?_ne_of_marks hnext), ih hrest, List.countP_cons,
      Nat.add_comm]

/-- Placeholders are replaced as long as there are parameters. -/
theorem countP_isSome_assigned (ss : List Stretch) (params : List Value) :
    (assigned ss params).countP (fun e => e.2.isSome)
      = min (ss.countP Stretch.isPlaceholder) params.length := by
  induction ss generalizing params with
  | nil => simp [assigned]
  | cons s ss ih =>
    rw [assigned_cons, List.countP_cons, List.countP_cons, ih, Stretch.taken, Stretch.left]
    cases s.isPlaceholder with
    | false => rfl
    | true =>
      cases params with
      | nil => simp
      | cons v vs =>
        simp only [if_true, List.tail_cons, List.head?_cons, Option.isSome_some, List.length_cons]
        omega

/-- Parameters behind those that are taken do not matter. -/
theorem assigned_take (ss : List Stretch) (params : List Value) :
    assigned ss (params.take (ss.countP Stretch.isPlaceholder)) = assigned ss params := by
  induction ss generalizing params with
  | nil => rfl
  | cons s ss ih =>
    rw [assigned_cons, assigned_cons, List.countP_cons, Stretch.taken, Stretch.taken, Stretch.left,
      Stretch.left]
    cases s.isPlaceholder with
    | false => exact congrArg _ (ih params)
    | true =>
      cases params with
      | nil => simp
      | cons v vs => exact congrArg _ (ih vs)

/-- Without parameters every stretch stays as it is. -/
theorem flatMap_assigned_nil (ss : List Stretch) :
    ((assigned ss []).flatMap fun e => e.1.shown e.2) = ss.flatMap Stretch.chars := by
  induction ss with
  | nil => rfl
  | cons s ss ih =>
    have htaken : s.taken [] = none := by simp [Stretch.taken]
    have hleft : s.left [] = [] := by simp [Stretch.left]
    rw [assigned_cons, List.flatMap_cons, List.flatMap_cons, htaken, hleft, ih, Stretch.shown_none]

/-- A text is filled stretch by stretch. Characters that are no marks and runs of more than two marks
stay as they are. Of the other runs, number `j` becomes the literal of parameter number `j` if it is
one mark, and the quoted name of that parameter if it is two, as long as there are parameters, and
stays as it is otherwise. So the places of the parameters are those of the text, whatever marks the
parameters hold, and as many are filled as the text has placeholders and the list has parameters.
Parameters beyond the placeholders do not matter, and without parameters the text stays as it is. -/
theorem fill_stretches (sql : String) (params : List Value) :
    (∃ ss, IsDivision ss sql.toList) ∧
    (∀ ss, IsDivision ss sql.toList →
      fill sql params = String.ofList ((assigned ss params).flatMap fun e => e.1.shown e.2) ∧
      count sql = ss.countP Stretch.isPlaceholder ∧
      (assigned ss params).countP (fun e => e.2.isSome) = min (count sql) params.length) ∧
    fill sql (params.take (count sql)) = fill sql params ∧
    fill sql [] = sql := by
  have hdivide := isDivision_divide sql.toList
  have hcount : ∀ ss, IsDivision ss sql.toList → count sql = ss.countP Stretch.isPlaceholder :=
    fun ss h => countFrom_division h
  refine ⟨⟨_, hdivide⟩, ?_, ?_, ?_⟩
  · intro ss h
    refine ⟨?_, hcount ss h, ?_⟩
    · rw [fill, fillFrom_division h]
    · rw [hcount ss h, countP_isSome_assigned]
  · rw [fill, fill, fillFrom_division hdivide, fillFrom_division hdivide, hcount _ hdivide,
      assigned_take]
  · rw [fill, fillFrom_division hdivide, flatMap_assigned_nil, hdivide.chars, String.ofList_toList]

/-- A parameter with marks, a run of three marks and a placeholder too many. -/
theorem fill_stretches_marked :
    IsDivision [.plain "a ".toList, .marks 3, .plain " b ".toList, .marks 1,
      .plain " AND ".toList, .marks 2, .plain " = ".toList, .marks 1]
      "a ??? b ? AND ?? = ?".toList ∧
    fill "a ??? b ? AND ?? = ?" [.text "x ??", .text "t.c"]
      = "a ??? b 'x ??' AND \x60t\x60.\x60c\x60 = ?" ∧
    count "a ??? b ? AND ?? = ?" = 3 := by
  have hdivision := isDivision_divide "a ??? b ? AND ?? = ?".toList
  obtain ⟨-, hstretches, -⟩ :=
    fill_stretches "a ??? b ? AND ?? = ?" [.text "x ??", .text "t.c"]
  obtain ⟨hfill, hcount, -⟩ := hstretches _ hdivision
  refine ⟨?_, ?_, ?_⟩
  · exact hdivision
  · rw [hfill]
    decide
  · rw [hcount]
    decide

end Placeholder

end Sqlwright
