import Sqlwright.Statement

/-!
# Assembling appends

Clauses come in the order of their slots. While they do, the slots behind the last one filled are
empty, and a clause that is added stands at the very end of the assembled statement: it follows
after a space, and nothing that was there moves (`Filled.assemble_add`).
-/

namespace Sqlwright

/-- The place of a slot in a statement. -/
def Slot.index (s : Slot) : Nat := Slot.all.idxOf s

/-- The slots in front of a slot. -/
def Slot.before (s : Slot) : List Slot := Slot.all.take s.index

/-- The slots behind a slot. -/
def Slot.behind (s : Slot) : List Slot := Slot.all.drop (s.index + 1)

namespace Slot

theorem all_eq (s : Slot) : all = s.before ++ s :: s.behind := by
  cases s <;> rfl

theorem index_lt_of_mem_behind {s other : Slot} (h : other ∈ s.behind) :
    s.index < other.index := by
  revert h
  cases s <;> cases other <;> decide

theorem ne_of_mem_before {s other : Slot} (h : other ∈ s.before) : other ≠ s := by
  revert h
  cases s <;> cases other <;> decide

theorem mem_before_of_isHead {s other : Slot} (ho : other.isHead = true)
    (hs : s.isHead = false) : other ∈ s.before := by
  revert ho hs
  cases s <;> cases other <;> decide

end Slot

theorem Fragment.join_pair_assoc (m : String) (f g h : Fragment) :
    join m [join m [f, g], h] = join m [f, join m [g, h]] := by
  simp [join, String.intercalate_cons_cons, String.append_assoc]

theorem Fragment.isBlank_join_pair {m : String} {f g : Fragment} (h : g.isBlank = false) :
    (join m [f, g]).isBlank = false := by
  have hsql : g.sql ≠ "" := by simpa [isBlank] using h
  simp [isBlank, join, String.intercalate_cons_cons, String.append_eq_empty_iff, hsql]

namespace Clauses

/-! ## Placing -/

theorem place_empty (done : Statement) (s : Slot) : place done s .empty = done := by
  rw [place, if_pos (by decide)]

theorem place_of_isHead {s : Slot} (hs : s.isHead = true) {f : Fragment}
    (hf : f.isBlank = false) : place .empty s f = f := by
  rw [place, hf, hs]
  simp [Fragment.empty]

theorem place_eq_join {done : Statement} (hd : done.isBlank = false) {s : Slot}
    (hs : s.isHead = false) {f : Fragment} (hf : f.isBlank = false) :
    place done s f = Fragment.join " " [done, f] := by
  rw [place, hf, hs, hd]
  simp [Fragment.join, String.intercalate_cons_cons]

theorem isBlank_place {done : Statement} {s : Slot} {f : Fragment}
    (h : done.isBlank = false ∨ f.isBlank = false) : (place done s f).isBlank = false := by
  rw [place]
  split
  · rename_i hf
    exact h.resolve_right (by simp [hf])
  · rename_i hf
    have hsql : f.sql ≠ "" := by simpa [Fragment.isBlank] using hf
    simp [Fragment.isBlank, String.append_eq_empty_iff, hsql]

/-- Places the clauses of some slots. -/
def placeAll (c : Clauses) (slots : List Slot) (done : Statement) : Statement :=
  slots.foldl (fun done s => place done s (c.slot s)) done

theorem placeAll_append (c : Clauses) (slots others : List Slot) (done : Statement) :
    c.placeAll (slots ++ others) done = c.placeAll others (c.placeAll slots done) :=
  List.foldl_append ..

theorem placeAll_of_empty {c : Clauses} {slots : List Slot}
    (h : ∀ s ∈ slots, c.slot s = .empty) (done : Statement) : c.placeAll slots done = done := by
  induction slots generalizing done with
  | nil => rfl
  | cons s slots ih =>
    rw [placeAll, List.foldl_cons, h s (by simp), place_empty]
    exact ih (fun t ht => h t (by simp [ht])) done

theorem placeAll_congr {c d : Clauses} {slots : List Slot}
    (h : ∀ s ∈ slots, c.slot s = d.slot s) (done : Statement) :
    c.placeAll slots done = d.placeAll slots done := by
  induction slots generalizing done with
  | nil => rfl
  | cons s slots ih =>
    rw [placeAll, placeAll, List.foldl_cons, List.foldl_cons, h s (by simp)]
    exact ih (fun t ht => h t (by simp [ht])) _

theorem isBlank_placeAll {c : Clauses} {slots : List Slot} {done : Statement}
    (h : done.isBlank = false ∨ ∃ s ∈ slots, (c.slot s).isBlank = false) :
    (c.placeAll slots done).isBlank = false := by
  induction slots generalizing done with
  | nil => exact h.resolve_right (by simp)
  | cons s slots ih =>
    rw [placeAll, List.foldl_cons]
    refine ih ?_
    rcases h with h | ⟨t, ht, hblank⟩
    · exact .inl (isBlank_place (.inl h))
    · rcases List.mem_cons.1 ht with rfl | ht
      · exact .inl (isBlank_place (.inr hblank))
      · exact .inr ⟨t, ht, hblank⟩

theorem assemble_eq_placeAll (c : Clauses) (s : Slot) :
    c.assemble = c.placeAll s.behind (place (c.placeAll s.before .empty) s (c.slot s)) := by
  have hall : c.assemble = c.placeAll Slot.all .empty := rfl
  rw [hall, Slot.all_eq s, placeAll_append]
  rfl

/-! ## Filling in order -/

/-- The slots up to a last one are filled: there is a head, nothing stands behind the last slot,
and a slot without text is empty. -/
structure Filled (c : Clauses) (last : Slot) : Prop where
  head : ∃ s, s.isHead = true ∧ (c.slot s).isBlank = false
  ahead : ∀ s, last.index < s.index → c.slot s = .empty
  blank : ∀ s, (c.slot s).isBlank = true → c.slot s = .empty

theorem Filled.mono {c : Clauses} {last later : Slot} (h : c.Filled last)
    (hl : last.index ≤ later.index) : c.Filled later where
  head := h.head
  ahead := fun s hs => h.ahead s (by omega)
  blank := h.blank

/-- Nothing is placed behind the last slot. -/
theorem Filled.assemble_eq {c : Clauses} {last : Slot} (h : c.Filled last) :
    c.assemble = place (c.placeAll last.before .empty) last (c.slot last) := by
  rw [assemble_eq_placeAll c last]
  exact placeAll_of_empty (fun s hs => h.ahead s (Slot.index_lt_of_mem_behind hs)) _

/-- A head alone is the whole statement. -/
theorem filled_head {s : Slot} (hs : s.isHead = true) {f : Fragment} (hf : f.isBlank = false) :
    (empty.add s f).Filled s ∧ (empty.add s f).assemble = f := by
  have hjoin : s ≠ .join := by
    rintro rfl
    cases hs
  have hself : (empty.add s f).slot s = f := by
    rw [add, if_neg hjoin, slot_put_self]
  have hother : ∀ other, other ≠ s → (empty.add s f).slot other = .empty := by
    intro other hne
    rw [add, if_neg hjoin, slot_put_of_ne _ hne]
    rfl
  have hfilled : (empty.add s f).Filled s := by
    refine ⟨⟨s, hs, by rw [hself, hf]⟩, fun other hlt => hother other ?_, fun other hb => ?_⟩
    · rintro rfl
      omega
    · by_cases hne : other = s
      · rw [hne, hself, hf] at hb
        cases hb
      · exact hother other hne
  refine ⟨hfilled, ?_⟩
  rw [hfilled.assemble_eq, hself,
    placeAll_of_empty fun other hm => hother other (Slot.ne_of_mem_before hm)]
  exact place_of_isHead hs hf

theorem slot_add_of_ne (c : Clauses) {s other : Slot} (h : other ≠ s) (f : Fragment) :
    (c.add s f).slot other = c.slot other := by
  rw [add]
  split <;> exact slot_put_of_ne c h _

/-- The slot of a clause: it holds the clause, behind the joins that came before it. -/
theorem slot_add_self {c : Clauses} {s : Slot} (f : Fragment)
    (h : c.slot s = .empty ∨ s = .join ∧ (c.slot s).isBlank = false) :
    (c.add s f).slot s
      = if c.slot s = .empty then f else Fragment.join " " [c.slot s, f] := by
  rw [add]
  by_cases hs : s = .join
  · subst hs
    rw [if_pos rfl, slot_put_self, extended]
    split
    · rename_i hb
      rcases h with h | ⟨-, h⟩
      · rw [h]
        simp [Fragment.empty]
      · rw [h] at hb
        cases hb
    · rename_i hb
      have hne : c.slot .join ≠ .empty := by
        intro he
        rw [he] at hb
        exact hb rfl
      rw [if_neg hne]
      simp [Fragment.join, String.intercalate_cons_cons]
  · rw [if_neg hs, slot_put_self, if_pos (h.resolve_right fun hj => hs hj.1)]

/-- A clause that comes in order is appended: its slot is behind the last one filled, or it is one
more join. -/
theorem Filled.assemble_add {c : Clauses} {last s : Slot} (h : c.Filled last)
    (hs : s.isHead = false) (hl : last.index < s.index ∨ last = s ∧ s = .join) {f : Fragment}
    (hf : f.isBlank = false) :
    (c.add s f).Filled s ∧ (c.add s f).assemble = Fragment.join " " [c.assemble, f] := by
  obtain ⟨t, ht, hhead⟩ := h.head
  have hts : t ≠ s := by
    rintro rfl
    rw [ht] at hs
    cases hs
  have hle : last.index ≤ s.index := by
    rcases hl with hlt | ⟨rfl, -⟩
    · omega
    · exact Nat.le_refl _
  have hslot : c.slot s = .empty ∨ s = .join ∧ (c.slot s).isBlank = false := by
    rcases hl with hlt | ⟨-, hj⟩
    · exact .inl (h.ahead s hlt)
    · cases hb : (c.slot s).isBlank with
      | true => exact .inl (h.blank s hb)
      | false => exact .inr ⟨hj, rfl⟩
  have hself := slot_add_self f hslot
  have hselfBlank : ((c.add s f).slot s).isBlank = false := by
    rw [hself]
    split
    · exact hf
    · exact Fragment.isBlank_join_pair hf
  have hfilled : (c.add s f).Filled s := by
    refine ⟨⟨t, ht, by rw [slot_add_of_ne c hts, hhead]⟩, fun other hlt => ?_, fun other hb => ?_⟩
    · have hne : other ≠ s := by
        rintro rfl
        omega
      rw [slot_add_of_ne c hne]
      exact h.ahead other (by omega)
    · by_cases hne : other = s
      · rw [hne, hselfBlank] at hb
        cases hb
      · rw [slot_add_of_ne c hne] at hb ⊢
        exact h.blank other hb
  refine ⟨hfilled, ?_⟩
  -- what stands in front of the slot is the same with and without the clause
  have hdone : (c.add s f).placeAll s.before .empty = c.placeAll s.before .empty :=
    placeAll_congr (fun other hm => slot_add_of_ne c (Slot.ne_of_mem_before hm) f) _
  have hdoneBlank : (c.placeAll s.before .empty).isBlank = false :=
    isBlank_placeAll (.inr ⟨t, Slot.mem_before_of_isHead ht hs, hhead⟩)
  rw [hfilled.assemble_eq, (h.mono hle).assemble_eq, hdone, hself]
  -- either the slot was empty, or it is the joins and the clause is one more of them
  by_cases he : c.slot s = .empty
  · rw [if_pos he, he, place_empty, place_eq_join hdoneBlank hs hf]
  · have hold : (c.slot s).isBlank = false := (hslot.resolve_left he).2
    rw [if_neg he, place_eq_join hdoneBlank hs hold,
      place_eq_join hdoneBlank hs (Fragment.isBlank_join_pair hf), Fragment.join_pair_assoc]

end Clauses

end Sqlwright
