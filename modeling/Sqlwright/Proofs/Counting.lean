import Mathlib.Algebra.GroupWithZero.Nat
import Sqlwright.Statement

/-!
# Counting placeholders

A run of marks that stands in one text is counted as one placeholder or none, so the number of
placeholders of two texts side by side is the sum of theirs only if no run goes over the border.
Any character other than a mark at the border is enough. A fragment is balanced if it has as many
parameters as placeholders.
-/

namespace Sqlwright

namespace Placeholder

/-! ## Texts side by side -/

theorem countFrom_of_ne (run : Nat) {c : Char} (hc : c ≠ '?') (t : List Char) :
    countFrom run (c :: t) = weight run + countFrom 0 t := by
  rw [countFrom, if_neg hc]

/-- A character that is no mark ends the run before it. -/
theorem countFrom_append_of_ne (run : Nat) (s : List Char) {c : Char} (hc : c ≠ '?')
    (t : List Char) : countFrom run (s ++ c :: t) = countFrom run s + countFrom 0 t := by
  induction s generalizing run with
  | nil => exact countFrom_of_ne run hc t
  | cons d s ih =>
    rw [List.cons_append, countFrom, countFrom]
    by_cases hd : d = '?'
    · rw [if_pos hd, if_pos hd, ih]
    · rw [if_neg hd, if_neg hd, ih, Nat.add_assoc]

/-- Nothing runs over the border if the second text does not begin with a mark. -/
theorem count_append {s t : String} (ht : t.toList.head? ≠ some '?') :
    count (s ++ t) = count s + count t := by
  rw [count, count, count, String.toList_append]
  cases h : t.toList with
  | nil => simp [countFrom, weight]
  | cons c cs =>
    have hc : c ≠ '?' := by simpa [h] using ht
    rw [countFrom_append_of_ne 0 s.toList hc, countFrom_of_ne 0 hc, weight]
    simp

/-- A text without marks. -/
def IsUnmarked (s : String) : Prop := ∀ c ∈ s.toList, c ≠ '?'

instance (s : String) : Decidable (IsUnmarked s) :=
  decidable_of_iff (s.toList.all (· != '?') = true) (by simp [IsUnmarked])

theorem IsUnmarked.head?_ne {s : String} (h : IsUnmarked s) : s.toList.head? ≠ some '?' :=
  fun hs => h '?' (List.mem_of_head? hs) rfl

theorem IsUnmarked.append {s t : String} (hs : IsUnmarked s) (ht : IsUnmarked t) :
    IsUnmarked (s ++ t) := by
  intro c hc
  rw [String.toList_append, List.mem_append] at hc
  exact hc.elim (hs c) (ht c)

/-- Characters that are no marks, in front of others, change no run. -/
theorem countFrom_unmarked_append {s : List Char} (h : ∀ c ∈ s, c ≠ '?') (t : List Char) :
    countFrom 0 (s ++ t) = countFrom 0 t := by
  induction s with
  | nil => rfl
  | cons c s ih =>
    rw [List.cons_append, countFrom_of_ne 0 (h c (by simp)), ih fun d hd => h d (by simp [hd]),
      weight]
    simp

theorem count_unmarked_append {s : String} (h : IsUnmarked s) (t : String) :
    count (s ++ t) = count t := by
  rw [count, String.toList_append, countFrom_unmarked_append h, count]

theorem IsUnmarked.count_eq_zero {s : String} (h : IsUnmarked s) : count s = 0 := by
  rw [← String.append_empty (s := s), count_unmarked_append h]
  rfl

theorem count_append_unmarked (s : String) {t : String} (h : IsUnmarked t) :
    count (s ++ t) = count s := by
  rw [count_append h.head?_ne, h.count_eq_zero, Nat.add_zero]

/-- Text without marks keeps what is before it apart from what is behind it. -/
theorem count_append_append {m : String} (hm : IsUnmarked m) (hne : m ≠ "") (s t : String) :
    count (s ++ m ++ t) = count s + count t := by
  have hhead : (m ++ t).toList.head? ≠ some '?' := by
    obtain ⟨c, cs, hc⟩ := List.exists_cons_of_ne_nil (mt String.toList_eq_nil_iff.1 hne)
    have hmark : c ≠ '?' := hm c (by simp [hc])
    simp [hc, hmark]
  rw [String.append_assoc, count_append hhead, count_unmarked_append hm]

theorem count_intercalate {m : String} (hm : IsUnmarked m) (hne : m ≠ "")
    (texts : List String) : count (m.intercalate texts) = (texts.map count).sum := by
  induction texts with
  | nil => rfl
  | cons s texts ih =>
    cases texts with
    | nil => simp
    | cons t texts =>
      rw [String.intercalate_cons_cons, count_append_append hm hne, ih]
      simp only [List.map_cons, List.sum_cons]

theorem count_commaSeparated (n : Nat) (s : String) :
    count (commaSeparated n s) = n * count s := by
  rw [commaSeparated, count_intercalate (by decide) (by decide), List.map_replicate,
    List.sum_replicate_nat]

theorem count_marks {mark : String} (hm : count mark = 1) (n : Nat) :
    count (commaSeparated n mark) = n := by
  rw [count_commaSeparated, hm, Nat.mul_one]

end Placeholder

/-! ## Balanced fragments -/

namespace Fragment

open Placeholder

/-- Every placeholder of a fragment has its parameter. -/
def IsBalanced (f : Fragment) : Prop := f.placeholders = f.params.length

theorem isBalanced_empty : empty.IsBalanced := rfl

theorem isBalanced_of_count {sql : String} {params : List Value} (n : Nat) (hc : count sql = n)
    (hp : params.length = n) : IsBalanced ⟨sql, params⟩ :=
  hc.trans hp.symm

/-- A balanced fragment without text has no parameters either. -/
theorem IsBalanced.params_eq_nil {f : Fragment} (h : f.IsBalanced) (hb : f.isBlank = true) :
    f.params = [] := by
  have hsql : f.sql = "" := by simpa [isBlank] using hb
  rw [IsBalanced, placeholders, hsql] at h
  exact List.length_eq_zero_iff.1 h.symm

theorem IsBalanced.enclose {f : Fragment} (h : f.IsBalanced) {before after : String}
    (hb : IsUnmarked before := by decide) (ha : IsUnmarked after := by decide) :
    (f.enclose before after).IsBalanced := by
  rw [IsBalanced, placeholders, sql_enclose, count_append_unmarked _ ha,
    count_unmarked_append hb]
  exact h

/-- Balanced fragments one after the other, where text that is no mark keeps them apart. -/
theorem IsBalanced.append {f g : Fragment} (hf : f.IsBalanced) (hg : g.IsBalanced) {m : String}
    (hm : IsUnmarked m := by decide) (hne : m ≠ "" := by decide) :
    IsBalanced ⟨f.sql ++ m ++ g.sql, f.params ++ g.params⟩ := by
  rw [IsBalanced, placeholders, count_append_append hm hne, List.length_append, ← hf, ← hg]
  rfl

theorem sum_placeholders {fs : List Fragment} (h : ∀ f ∈ fs, f.IsBalanced) :
    (fs.map placeholders).sum = (fs.flatMap params).length := by
  rw [List.length_flatMap]
  exact congrArg _ (List.map_congr_left h)

theorem isBalanced_join {m : String} {fs : List Fragment} (h : ∀ f ∈ fs, f.IsBalanced)
    (hm : IsUnmarked m := by decide) (hne : m ≠ "" := by decide) : (join m fs).IsBalanced := by
  rw [IsBalanced, placeholders, sql_join, params_join, count_intercalate hm hne,
    ← sum_placeholders h, List.map_map]
  rfl

/-- A balanced fragment that may stand directly behind a placeholder. -/
structure Fits (f : Fragment) : Prop where
  balanced : f.IsBalanced
  front : f.sql.toList.head? ≠ some '?'

theorem fits_empty : empty.Fits := ⟨isBalanced_empty, by decide⟩

theorem fits_of_count {sql : String} {params : List Value} (n : Nat) (hc : count sql = n)
    (hp : params.length = n) (hf : sql.toList.head? ≠ some '?') : Fits ⟨sql, params⟩ :=
  ⟨isBalanced_of_count n hc hp, hf⟩

/-- A balanced fragment behind a word. -/
theorem IsBalanced.fits_enclose {f : Fragment} (h : f.IsBalanced) {before after : String}
    (hb : IsUnmarked before := by decide) (hne : before ≠ "" := by decide)
    (ha : IsUnmarked after := by decide) : (f.enclose before after).Fits where
  balanced := h.enclose hb ha
  front := by
    obtain ⟨c, cs, hc⟩ := List.exists_cons_of_ne_nil (mt String.toList_eq_nil_iff.1 hne)
    have hmark : c ≠ '?' := hb c (by simp [hc])
    simp [hc, hmark]

/-- A balanced fragment with a word in front. -/
theorem IsBalanced.fits_behind {sql : String} {params : List Value}
    (h : IsBalanced ⟨sql, params⟩) {word : String} (hb : IsUnmarked word := by decide)
    (hne : word ≠ "" := by decide) : Fits ⟨word ++ sql, params⟩ := by
  have hempty : IsUnmarked "" := by decide
  simpa [Fragment.enclose] using h.fits_enclose hb hne hempty

end Fragment

end Sqlwright
