import Mathlib.Data.Bool.AllAny
import Sqlwright.Statement

/-!
# Tidy texts

What all pieces of a statement have in common, whoever named its tables and columns: they keep to
one alphabet, close every parenthesis that they open, put a space on both sides of a dash, and set
every placeholder apart from what is beside it. Texts side by side are tidy again if one of them has
a delimiter at the border (`IsTidy.append`).
-/

namespace Sqlwright

/-- The characters that the text of a statement is made of. -/
def isStatementChar (c : Char) : Bool :=
  Name.isWordChar c || decide (c ∈ " .*?,()=!<>+-".toList)

/-- The characters that may stand beside a placeholder. -/
def isDelimiter (c : Char) : Bool := decide (c ∈ " ,()".toList)

/-! ## Parentheses -/

/-- Parentheses are balanced, and none closes before it opens. -/
structure IsNested (cs : List Char) : Prop where
  opened : ∀ front, front <+: cs → front.count ')' ≤ front.count '('
  closed : cs.count ')' = cs.count '('

namespace IsNested

theorem of_flat {cs : List Char} (h : ∀ c ∈ cs, c ≠ '(' ∧ c ≠ ')') : IsNested cs := by
  have hnone : ∀ front, front <+: cs → front.count ')' = 0 := fun front hf =>
    List.count_eq_zero_of_not_mem fun hm => (h ')' (hf.subset hm)).2 rfl
  refine ⟨fun front hf => by rw [hnone front hf]; exact Nat.zero_le _, ?_⟩
  rw [hnone cs (List.prefix_refl cs)]
  exact (List.count_eq_zero_of_not_mem fun hm => (h '(' hm).1 rfl).symm

theorem append {xs ys : List Char} (hx : IsNested xs) (hy : IsNested ys) :
    IsNested (xs ++ ys) := by
  have hcounts := hx.closed
  refine ⟨fun front hf => ?_, ?_⟩
  · rcases List.prefix_or_prefix_of_prefix hf (List.prefix_append xs ys) with h | ⟨p, rfl⟩
    · exact hx.opened front h
    · have hp := hy.opened p ((List.prefix_append_right_inj xs).1 hf)
      rw [List.count_append, List.count_append]
      omega
  · rw [List.count_append, List.count_append, hcounts, hy.closed]

theorem enclosed {cs : List Char} (h : IsNested cs) : IsNested ('(' :: (cs ++ [')'])) := by
  have hclosed := h.closed
  refine ⟨fun front hf => ?_, ?_⟩
  · rcases List.prefix_cons_iff.1 hf with rfl | ⟨inner, rfl, hi⟩
    · simp
    · rcases List.prefix_concat_iff.1 hi with rfl | hi
      · simp [List.count_append, hclosed]
      · have hinner := h.opened inner hi
        rw [List.count_cons_of_ne (by decide), List.count_cons_self]
        omega
  · simp [List.count_append, hclosed]

end IsNested

/-! ## Dashes -/

/-- Every dash stands between two spaces. -/
def IsSpaced (cs : List Char) : Prop :=
  ∀ front back, cs = front ++ '-' :: back → front.getLast? = some ' ' ∧ back.head? = some ' '

namespace IsSpaced

theorem of_undashed {cs : List Char} (h : ∀ c ∈ cs, c ≠ '-') : IsSpaced cs := by
  rintro front back rfl
  exact absurd rfl (h '-' (by simp))

/-- What is beside a dash stays beside it. -/
theorem append {xs ys : List Char} (hx : IsSpaced xs) (hy : IsSpaced ys) :
    IsSpaced (xs ++ ys) := by
  intro front back h
  rcases List.append_eq_append_iff.1 h with ⟨inner, rfl, rfl⟩ | ⟨inner, rfl, hinner⟩
  · obtain ⟨hfront, hback⟩ := hy inner back rfl
    exact ⟨by rw [List.getLast?_append, hfront]; rfl, hback⟩
  · cases inner with
    | nil => exact absurd (hy [] back hinner.symm).1 (by simp)
    | cons c inner =>
      rw [List.cons_append, List.cons.injEq] at hinner
      obtain ⟨rfl, rfl⟩ := hinner
      obtain ⟨hfront, hback⟩ := hx front inner rfl
      exact ⟨hfront, by rw [List.head?_append, hback]; rfl⟩

/-- A dash between two spaces. -/
theorem dash : IsSpaced [' ', '-', ' '] := by
  intro front back h
  rcases front with _ | ⟨c, _ | ⟨d, front⟩⟩
  · cases h
  · cases h
    exact ⟨rfl, rfl⟩
  · simp only [List.cons_append, List.cons.injEq] at h
    obtain ⟨-, -, hlast⟩ := h
    rcases front with _ | ⟨e, front⟩ <;> simp at hlast

end IsSpaced

/-! ## Placeholders -/

/-- Whether every run of marks is a placeholder with a delimiter on both sides, in a text that
continues such a run. `apart` says whether the text in front of the run ends in a delimiter. -/
def standAloneFrom (apart : Bool) (run : Nat) : List Char → Bool
  | [] => run == 0 || (apart && decide (run ≤ 2))
  | c :: cs =>
    if c = '?' then standAloneFrom apart (run + 1) cs
    else (run == 0 || (apart && decide (run ≤ 2) && isDelimiter c))
      && standAloneFrom (isDelimiter c) 0 cs

/-- Whether every run of marks is a placeholder that stands alone. -/
def standAlone (cs : List Char) : Bool := standAloneFrom true 0 cs

theorem ne_mark_of_isDelimiter {c : Char} (h : isDelimiter c = true) : c ≠ '?' := by
  rintro rfl
  exact absurd h (by decide)

/-- A delimiter parts the runs in front of it from those behind. -/
theorem standAloneFrom_append (apart : Bool) (run : Nat) (cs : List Char) {d : Char}
    (hd : isDelimiter d = true) (ds : List Char) :
    standAloneFrom apart run (cs ++ d :: ds)
      = (standAloneFrom apart run cs && standAlone ds) := by
  induction cs generalizing apart run with
  | nil =>
    rw [List.nil_append, standAloneFrom.eq_2, if_neg (ne_mark_of_isDelimiter hd), hd,
      Bool.and_true]
    rfl
  | cons c cs ih =>
    rw [List.cons_append, standAloneFrom, standAloneFrom]
    by_cases hc : c = '?'
    · rw [if_pos hc, if_pos hc]
      exact ih apart (run + 1)
    · rw [if_neg hc, if_neg hc, ih, ← Bool.and_assoc]

theorem standAlone_of_unmarked {cs : List Char} (h : ∀ c ∈ cs, c ≠ '?') (apart : Bool) :
    standAloneFrom apart 0 cs = true := by
  induction cs generalizing apart with
  | nil => rfl
  | cons c cs ih =>
    obtain ⟨hc, hcs⟩ := List.forall_mem_cons.1 h
    rw [standAloneFrom, if_neg hc, ih hcs]
    rfl

/-- A run of marks has a delimiter in front. -/
theorem standAloneFrom_false_succ (run : Nat) (cs : List Char) :
    standAloneFrom false (run + 1) cs = false := by
  induction cs generalizing run with
  | nil => rfl
  | cons c cs ih =>
    rw [standAloneFrom]
    split
    · exact ih (run + 1)
    · rfl

theorem apart_of_standAloneFrom {apart : Bool} {run : Nat} {cs : List Char}
    (h : standAloneFrom apart (run + 1) cs = true) : apart = true := by
  cases apart with
  | true => rfl
  | false =>
    rw [standAloneFrom_false_succ] at h
    cases h

/-- Every run of marks is one or two of them, with a delimiter or an end of the text on both
sides. -/
def IsParted (cs : List Char) : Prop :=
  ∀ front run back, cs = front ++ (List.replicate run '?' ++ back) → 0 < run →
    front.getLast? ≠ some '?' → back.head? ≠ some '?' →
    run ≤ 2 ∧ (∀ c ∈ front.getLast?, isDelimiter c = true) ∧
      ∀ c ∈ back.head?, isDelimiter c = true

theorem standAloneFrom_replicate (apart : Bool) (run count : Nat) (cs : List Char) :
    standAloneFrom apart run (List.replicate count '?' ++ cs)
      = standAloneFrom apart (run + count) cs := by
  induction count generalizing run with
  | zero => rfl
  | succ count ih =>
    rw [List.replicate_succ, List.cons_append, standAloneFrom, if_pos rfl, ih, Nat.add_right_comm,
      Nat.add_assoc]

/-- Behind a character that is no mark the runs stand alone as well. -/
theorem standAloneFrom_of_append {apart : Bool} {run : Nat} {front : List Char} {c : Char}
    (hc : c ≠ '?') {cs : List Char} (h : standAloneFrom apart run (front ++ c :: cs) = true) :
    standAloneFrom (isDelimiter c) 0 cs = true := by
  induction front generalizing apart run with
  | nil =>
    rw [List.nil_append, standAloneFrom, if_neg hc, Bool.and_eq_true] at h
    exact h.2
  | cons d front ih =>
    rw [List.cons_append, standAloneFrom] at h
    split at h
    · exact ih h
    · rw [Bool.and_eq_true] at h
      exact ih h.2

/-- A run of marks that is finished has a delimiter on both sides. -/
theorem of_standAloneFrom {apart : Bool} {run : Nat} {back : List Char} (hrun : 0 < run)
    (hb : back.head? ≠ some '?') (h : standAloneFrom apart run back = true) :
    run ≤ 2 ∧ apart = true ∧ ∀ c ∈ back.head?, isDelimiter c = true := by
  have hne : (run == 0) = false := by
    rw [beq_eq_false_iff_ne]
    omega
  cases back with
  | nil =>
    rw [standAloneFrom, hne, Bool.false_or, Bool.and_eq_true, decide_eq_true_iff] at h
    exact ⟨h.2, h.1, by simp⟩
  | cons c back =>
    have hc : c ≠ '?' := fun hc => hb (by rw [hc]; rfl)
    rw [standAloneFrom, if_neg hc, hne, Bool.false_or] at h
    simp only [Bool.and_eq_true, decide_eq_true_iff] at h
    refine ⟨h.1.1.2, h.1.1.1, fun d hd => ?_⟩
    rw [← Option.some.inj hd]
    exact h.1.2

theorem isParted_of_standAlone {cs : List Char} (h : standAlone cs = true) : IsParted cs := by
  rintro front run back rfl hrun hf hb
  rcases List.eq_nil_or_concat front with rfl | ⟨front, c, rfl⟩
  · rw [List.nil_append, standAlone, standAloneFrom_replicate, Nat.zero_add] at h
    obtain ⟨htwo, -, hback⟩ := of_standAloneFrom hrun hb h
    exact ⟨htwo, by simp, hback⟩
  · have hc : c ≠ '?' := by simpa using hf
    rw [List.concat_eq_append, List.append_assoc, List.singleton_append, standAlone] at h
    have hrest := standAloneFrom_of_append hc h
    rw [standAloneFrom_replicate, Nat.zero_add] at hrest
    obtain ⟨htwo, hapart, hback⟩ := of_standAloneFrom hrun hb hrest
    refine ⟨htwo, fun d hd => ?_, hback⟩
    have hd : c = d := by simpa using hd
    rw [← hd]
    exact hapart

/-- The induction behind `standAlone_iff`, along the text: `front` and the run of marks behind it
are what was read. -/
theorem standAloneFrom_of_isParted {cs front : List Char} {run : Nat}
    (h : IsParted (front ++ (List.replicate run '?' ++ cs))) (hf : front.getLast? ≠ some '?') :
    standAloneFrom (front.getLast?.all isDelimiter) run cs = true := by
  induction cs generalizing front run with
  | nil =>
    rw [standAloneFrom]
    cases run with
    | zero => rfl
    | succ run =>
      obtain ⟨htwo, hfront, -⟩ := h front (run + 1) [] rfl (Nat.succ_pos run) hf (by simp)
      have hall := (Option.all_eq_true _ _).2 hfront
      simp [hall, htwo]
  | cons c cs ih =>
    rw [standAloneFrom]
    split
    · rename_i hc
      subst hc
      refine ih ?_ hf
      rw [List.replicate_succ', List.append_assoc, List.singleton_append]
      exact h
    · rename_i hc
      have hrest : standAloneFrom (isDelimiter c) 0 cs = true := by
        have hlast : (front ++ (List.replicate run '?' ++ [c])).getLast? = some c := by
          rw [← List.append_assoc, List.getLast?_concat]
        have hbehind : IsParted (front ++ (List.replicate run '?' ++ [c]) ++
            (List.replicate 0 '?' ++ cs)) := by
          simpa [List.append_assoc] using h
        have hread := ih hbehind (by rw [hlast]; simpa using hc)
        rw [hlast] at hread
        exact hread
      rw [hrest, Bool.and_true]
      cases run with
      | zero => rfl
      | succ run =>
        obtain ⟨htwo, hfront, hback⟩ :=
          h front (run + 1) (c :: cs) rfl (Nat.succ_pos run) hf (by simpa using hc)
        have hall := (Option.all_eq_true _ _).2 hfront
        simp [hall, htwo, hback c rfl]

theorem standAlone_iff {cs : List Char} : standAlone cs = true ↔ IsParted cs := by
  refine ⟨isParted_of_standAlone, fun h => ?_⟩
  have hread : IsParted ([] ++ (List.replicate 0 '?' ++ cs)) := h
  exact standAloneFrom_of_isParted hread (by simp)

/-! ## Tidy texts -/

/-- A text that can be a piece of a statement. -/
structure IsTidy (s : String) : Prop where
  chars : ∀ c ∈ s.toList, isStatementChar c = true
  nested : IsNested s.toList
  spaced : IsSpaced s.toList
  parted : standAlone s.toList = true

/-- Whether a text begins with a delimiter. -/
def beginsApart (s : String) : Bool := s.toList.head?.any isDelimiter

/-- Whether a text ends in a delimiter. -/
def endsApart (s : String) : Bool := s.toList.getLast?.any isDelimiter

/-- What could end a name or a statement, or open a text or a comment. -/
def breakouts : List String := ["'", "\"", "\x60", ";", "\\", "--", "/*", "#"]

/-- A character that neither nests nor has to be set apart. -/
def isPlainChar (c : Char) : Bool := isStatementChar c && decide (c ∉ "()-".toList)

/-- A text without parentheses and dashes whose placeholders stand alone. -/
def isPlainText (s : String) : Bool := s.toList.all isPlainChar && standAlone s.toList

namespace IsTidy

theorem of_isPlainText {s : String} (h : isPlainText s = true) : IsTidy s := by
  rw [isPlainText, Bool.and_eq_true, List.all_eq_true] at h
  obtain ⟨hchars, hparted⟩ := h
  refine ⟨fun c hc => ?_, .of_flat fun c hc => ⟨?_, ?_⟩, .of_undashed fun c hc => ?_, hparted⟩
  · have hplain := hchars c hc
    rw [isPlainChar, Bool.and_eq_true] at hplain
    exact hplain.1
  all_goals
    rintro rfl
    exact absurd (hchars _ hc) (by decide)

/-- A fragment with a fixed text. -/
theorem literal {sql : String} {params : List Value} (h : isPlainText sql = true) :
    IsTidy (Fragment.mk sql params).sql :=
  of_isPlainText h

theorem empty : IsTidy "" := of_isPlainText rfl

/-- A dash with its two spaces. -/
theorem dash : IsTidy " - " where
  chars := List.all_eq_true.1 (by decide)
  nested := .of_flat (List.all_iff_forall_prop.1 (by decide))
  spaced := .dash
  parted := by decide

/-- A text is tidy if both of its parts are and one of them has a delimiter at their border. -/
theorem append {s t : String} (hs : IsTidy s) (ht : IsTidy t)
    (hb : endsApart s = true ∨ beginsApart t = true) : IsTidy (s ++ t) := by
  constructor
  · intro c hc
    rw [String.toList_append, List.mem_append] at hc
    exact hc.elim (hs.chars c) (ht.chars c)
  · rw [String.toList_append]
    exact hs.nested.append ht.nested
  · rw [String.toList_append]
    exact hs.spaced.append ht.spaced
  · have hsp := hs.parted
    have htp := ht.parted
    rw [String.toList_append]
    rcases hb with hb | hb
    · obtain ⟨d, hlast, hd⟩ := (Option.any_eq_true _ _).1 hb
      obtain ⟨cs, hcs⟩ := List.getLast?_eq_some_iff.1 hlast
      rw [hcs, standAlone, standAloneFrom_append true 0 cs hd, Bool.and_eq_true] at hsp
      rw [hcs, List.append_assoc, List.singleton_append, standAlone,
        standAloneFrom_append true 0 cs hd, hsp.1, htp]
      rfl
    · obtain ⟨d, hhead, hd⟩ := (Option.any_eq_true _ _).1 hb
      obtain ⟨ds, hds⟩ := List.head?_eq_some_iff.1 hhead
      rw [hds, ← List.nil_append (d :: ds), standAlone, standAloneFrom_append true 0 [] hd,
        Bool.and_eq_true] at htp
      rw [hds, standAlone, standAloneFrom_append true 0 s.toList hd, htp.2, Bool.and_true]
      exact hsp

/-- Two tidy texts with one between them that has delimiters at both ends. -/
theorem around {s m t : String} (hs : IsTidy s) (hm : IsTidy m) (ht : IsTidy t)
    (hb : beginsApart m = true) (he : endsApart m = true) : IsTidy (s ++ m ++ t) := by
  have hend : endsApart (s ++ m) = true := by
    obtain ⟨d, hlast, hd⟩ := (Option.any_eq_true _ _).1 he
    rw [endsApart, String.toList_append, List.getLast?_append, hlast]
    exact hd
  exact (hs.append hm (.inr hb)).append ht (.inl hend)

theorem enclosed {s : String} (h : IsTidy s) : IsTidy ("(" ++ s ++ ")") := by
  have htext : ("(" ++ s ++ ")").toList = '(' :: (s.toList ++ [')']) := by simp
  constructor
  · intro c hc
    rw [htext, List.mem_cons, List.mem_append, List.mem_singleton] at hc
    rcases hc with rfl | hc | rfl
    · decide
    · exact h.chars c hc
    · decide
  · rw [htext]
    exact h.nested.enclosed
  · have hopen : IsSpaced ['('] := .of_undashed (by simp)
    have hclose : IsSpaced [')'] := .of_undashed (by simp)
    rw [htext]
    exact hopen.append (h.spaced.append hclose)
  · have hopen : isDelimiter '(' = true := by decide
    have hclose : isDelimiter ')' = true := by decide
    rw [htext, standAlone, ← List.nil_append ('(' :: _), standAloneFrom_append true 0 [] hopen,
      standAlone, standAloneFrom_append true 0 s.toList hclose]
    have hparted := h.parted
    rw [standAlone] at hparted
    rw [hparted]
    rfl

/-- Tidy texts one after the other, with a text between each two that has delimiters at both
ends. -/
theorem intercalate {m : String} (hm : IsTidy m) (hb : beginsApart m = true)
    (he : endsApart m = true) {texts : List String} (h : ∀ t ∈ texts, IsTidy t) :
    IsTidy (m.intercalate texts) := by
  induction texts with
  | nil => exact .empty
  | cons s texts ih =>
    obtain ⟨hs, hrest⟩ := List.forall_mem_cons.1 h
    cases texts with
    | nil => simpa using hs
    | cons t texts =>
      rw [String.intercalate_cons_cons]
      exact hs.around hm (ih hrest) hb he

/-- A tidy text behind a keyword. -/
theorem behind {keyword s : String} (hk : IsTidy keyword) (he : endsApart keyword = true)
    (h : IsTidy s) : IsTidy (keyword ++ s) :=
  hk.append h (.inl he)

theorem enclose {keyword : String} {f : Fragment} (h : IsTidy f.sql) (hk : IsTidy keyword)
    (he : endsApart keyword = true) : IsTidy (f.enclose keyword "").sql := by
  rw [Fragment.sql_enclose, String.append_empty]
  exact hk.behind he h

/-- Several tidy texts with commas between them. -/
theorem listed {texts : List String} (h : ∀ t ∈ texts, IsTidy t) :
    IsTidy (", ".intercalate texts) :=
  intercalate (of_isPlainText (by decide)) (by decide) (by decide) h

/-- Nothing in a tidy text breaks out of it. -/
theorem not_breakout {s : String} (h : IsTidy s) :
    ∀ b ∈ breakouts, ¬b.toList <:+: s.toList := by
  intro b hb hin
  have hforms : ∀ b ∈ breakouts, b = "--" ∨ b.toList.all isStatementChar = false := by
    decide
  rcases hforms b hb with rfl | hforeign
  · obtain ⟨front, back, htext⟩ := hin
    have hsplit : s.toList = front ++ '-' :: '-' :: back := by
      rw [← htext]
      simp
    exact absurd (h.spaced front ('-' :: back) hsplit).2 (by simp)
  · obtain ⟨c, hc, hchar⟩ := List.all_eq_false.1 hforeign
    exact hchar (h.chars c (hin.subset hc))

theorem repeated {s : String} (h : IsTidy s) (count : Nat) : IsTidy (commaSeparated count s) := by
  refine listed fun t ht => ?_
  rw [List.eq_of_mem_replicate ht]
  exact h

end IsTidy

end Sqlwright
