import Sqlwright.SelectList

/-!
# Repeated fields

A field is recognised by a text made of its parts, and of several fields with one text the first is
kept. The parameters of an expression are no part of that text: of two expressions that differ in
them alone, the second is dropped together with its parameters. All else that a dropped field would
add stands in the list already, unless two fields that differ share their text
(`SelectList.exists_kept_of_drops`).
-/

namespace Sqlwright

namespace SelectList

/-! ## Dropping -/

/-- Whether a field was seen counts, not where. -/
theorem distinctFrom_congr {seen seen' : List String} (h : ∀ i, i ∈ seen ↔ i ∈ seen')
    (fields : SelectList) : distinctFrom seen fields = distinctFrom seen' fields := by
  induction fields generalizing seen seen' with
  | nil => rfl
  | cons f fields ih =>
    have hcons : ∀ i, i ∈ f.identity :: seen ↔ i ∈ f.identity :: seen' := by
      intro i
      rw [List.mem_cons, List.mem_cons, h i]
    rw [distinctFrom, distinctFrom, ih h, ih hcons]
    simp only [h f.identity]

/-- The fields of the second part are compared with those of the first. -/
theorem distinctFrom_append (seen : List String) (before after : SelectList) :
    distinctFrom seen (before ++ after)
      = distinctFrom seen before ++ distinctFrom (before.map Field.identity ++ seen) after := by
  induction before generalizing seen with
  | nil => rfl
  | cons f before ih =>
    rw [List.cons_append, distinctFrom, distinctFrom, List.map_cons, List.cons_append]
    by_cases hf : f.identity ∈ seen
    · have hsame : ∀ i, i ∈ before.map Field.identity ++ seen ↔
          i ∈ f.identity :: (before.map Field.identity ++ seen) := by
        intro i
        rw [List.mem_cons, or_iff_right_of_imp]
        rintro rfl
        exact List.mem_append_right _ hf
      rw [if_pos hf, if_pos hf, ih, distinctFrom_congr hsame]
    · have hsame : ∀ i, i ∈ before.map Field.identity ++ f.identity :: seen ↔
          i ∈ f.identity :: (before.map Field.identity ++ seen) := by
        intro i
        rw [List.mem_append, List.mem_cons, List.mem_cons, List.mem_append, or_left_comm]
      rw [if_neg hf, if_neg hf, ih, List.cons_append, distinctFrom_congr hsame]

/-- What is kept of the front of a list does not depend on what follows. -/
theorem distinct_prefix (before after : SelectList) :
    distinct before <+: distinct (before ++ after) := by
  rw [distinct, distinct, distinctFrom_append]
  exact List.prefix_append _ _

/-- A field is dropped exactly if its text came before. -/
theorem distinct_concat (before : SelectList) (f : Field) :
    distinct (before ++ [f])
      = if f.identity ∈ before.map Field.identity then distinct before
        else distinct before ++ [f] := by
  rw [distinct, distinctFrom_append, List.append_nil, distinctFrom]
  split
  · exact List.append_nil _
  · rfl

/-- Of every text the list has, a field is kept. -/
theorem exists_mem_distinctFrom {fields : SelectList} {f : Field} (h : f ∈ fields)
    (seen : List String) :
    f.identity ∈ seen ∨ ∃ g ∈ distinctFrom seen fields, g.identity = f.identity := by
  induction fields generalizing seen with
  | nil => cases h
  | cons g fields ih =>
    rw [distinctFrom]
    rcases List.mem_cons.1 h with rfl | h
    · by_cases hf : f.identity ∈ seen
      · exact .inl hf
      · rw [if_neg hf]
        exact .inr ⟨f, by simp, rfl⟩
    · by_cases hg : g.identity ∈ seen
      · rw [if_pos hg]
        exact ih h seen
      · rw [if_neg hg]
        rcases ih h (g.identity :: seen) with hm | ⟨g', hg', hi⟩
        · rcases List.mem_cons.1 hm with hm | hm
          · exact .inr ⟨g, by simp, hm.symm⟩
          · exact .inl hm
        · exact .inr ⟨g', List.mem_cons_of_mem _ hg', hi⟩

/-- The field behind some others is dropped: they alone give the same. -/
def Drops (before : SelectList) (f : Field) : Prop := distinct (before ++ [f]) = distinct before

theorem drops_iff {before : SelectList} {f : Field} :
    Drops before f ↔ f.identity ∈ before.map Field.identity := by
  rw [Drops, distinct_concat]
  split
  · rename_i h
    simp [h]
  · rename_i h
    simp [h]

/-- A dropped field shares its text with one that is kept in front of it. -/
theorem exists_mem_distinct_of_drops {before : SelectList} {f : Field} (h : Drops before f) :
    ∃ g ∈ distinct before, g.identity = f.identity := by
  obtain ⟨g, hg, hi⟩ := List.mem_map.1 (drops_iff.1 h)
  rw [← hi]
  exact (exists_mem_distinctFrom hg []).resolve_left (by simp)

end SelectList

namespace Field

/-! ## What a text stands for -/

/-- Whether a field is an expression in the caller's own words. -/
def isRaw : Field → Bool
  | .raw _ _ _ => true
  | _ => false

/-- Two labelled columns, or two expressions, that differ and are still recognised by one text, such
as `a:b` labelled `c` and `a` labelled `b:c`. -/
def Collides (f g : Field) : Prop :=
  f.identity = g.identity ∧
    match f, g with
    | .aliased name _, .aliased other _ => name ≠ other
    | .raw sql _ _, .raw other _ _ => sql ≠ other
    | _, _ => False

/-- Fields that are recognised by one text differ at most in their parameters, unless they
collide. -/
theorem withParams_eq_of_identity {f g : Field} (hi : f.identity = g.identity)
    (hclear : ¬f.Collides g) : f.withParams [] = g.withParams [] := by
  have hchars := congrArg String.toList hi
  cases f with
  | star =>
    cases g with
    | star => rfl
    | column | aliased => simp [identity] at hchars
    | raw sql label params => cases label <;> simp [identity] at hchars
  | column name =>
    cases g with
    | column name' =>
      have hname : name = name' := String.toList_inj.1 (by simpa [identity] using hchars)
      rw [hname]
    | star | aliased => simp [identity] at hchars
    | raw sql label params => cases label <;> simp [identity] at hchars
  | aliased name label =>
    cases g with
    | aliased name' label' =>
      obtain rfl : name = name' := Decidable.byContradiction fun hne => hclear ⟨hi, hne⟩
      have hlabel : label = label' := String.toList_inj.1 (by simpa [identity] using hchars)
      rw [hlabel]
    | star | column => simp [identity] at hchars
    | raw sql label params => cases label <;> simp [identity] at hchars
  | raw sql label params =>
    cases g with
    | raw sql' label' params' =>
      obtain rfl : sql = sql' := Decidable.byContradiction fun hne => hclear ⟨hi, hne⟩
      have hlabel : label = label' := by
        cases label <;> cases label' <;> simp [identity] at hchars ⊢
        exact String.toList_inj.1 hchars
      rw [hlabel]
      rfl
    | star | column | aliased => cases label <;> simp [identity] at hchars

/-- The parameters of an expression are no part of its text. -/
theorem sql_fragment_withParams (f : Field) (params : List Value) :
    (f.withParams params).fragment.sql = f.fragment.sql := by
  cases f with
  | raw sql label given => cases label <;> rfl
  | _ => rfl

theorem withParams_of_not_isRaw {f : Field} (h : f.isRaw = false) (params : List Value) :
    f.withParams params = f := by
  cases f with
  | raw => cases h
  | _ => rfl

theorem isRaw_withParams (f : Field) (params : List Value) :
    (f.withParams params).isRaw = f.isRaw := by
  cases f <;> rfl

/-- Fields that differ at most in the parameters of an expression say the same. -/
theorem fragment_eq_of_withParams {f g : Field} (h : f.withParams [] = g.withParams []) :
    f.fragment.sql = g.fragment.sql ∧
      (g.isRaw = false → f.fragment.params = g.fragment.params) := by
  refine ⟨?_, fun hg => ?_⟩
  · rw [← sql_fragment_withParams f [], h, sql_fragment_withParams]
  · have hf : f.isRaw = false := by rw [← isRaw_withParams f [], h, isRaw_withParams, hg]
    rw [← withParams_of_not_isRaw hf [], h, withParams_of_not_isRaw hg]

end Field

namespace SelectList

/-- A dropped field is represented: a field with its text is kept in front of it, whatever follows.
Unless the two collide, that field has the same SQL, and the same parameters too if it is no
expression in the caller's own words. -/
theorem exists_kept_of_drops {before : SelectList} {f : Field} (h : Drops before f)
    (after : SelectList) :
    ∃ g ∈ distinct before, distinct before <+: distinct (before ++ f :: after) ∧
      g.identity = f.identity ∧
      (¬g.Collides f → g.fragment.sql = f.fragment.sql ∧
        (f.isRaw = false → g.fragment.params = f.fragment.params)) := by
  obtain ⟨g, hg, hi⟩ := exists_mem_distinct_of_drops h
  refine ⟨g, hg, distinct_prefix before _, hi, fun hclear => ?_⟩
  exact Field.fragment_eq_of_withParams (Field.withParams_eq_of_identity hi hclear)

/-- One expression with two parameters: the second is dropped, and no field has its parameter. -/
theorem drops_of_other_params :
    Drops [.raw "score > ?" none [.int 50]] (.raw "score > ?" none [.int 100]) ∧
      ∀ g ∈ [Field.raw "score > ?" none [.int 50]],
        g.fragment ≠ (Field.raw "score > ?" none [.int 100]).fragment :=
  ⟨rfl, by decide⟩

/-- A column, a labelled column and an expression that come again. The expression comes again with
another parameter, and the one that it came with first is kept. -/
theorem kept_of_repetitions :
    (Drops [.column "id", .column "a"] (.column "id") ∧
      ∃ g ∈ distinct [.column "id", .column "a"],
        g.fragment.sql = (Field.column "id").fragment.sql ∧
        g.fragment.params = (Field.column "id").fragment.params) ∧
    (Drops [.column "id", .aliased "a" "b"] (.aliased "a" "b") ∧
      ∃ g ∈ distinct [.column "id", .aliased "a" "b"],
        g.fragment.sql = "?? AS ??" ∧ g.fragment.params = [.text "a", .text "b"]) ∧
    Drops [.column "id", .raw "a > ?" (some "big") [.int 1]]
        (.raw "a > ?" (some "big") [.int 2]) ∧
      ∃ g ∈ distinct [.column "id", .raw "a > ?" (some "big") [.int 1]],
        g.fragment.sql = "a > ? AS \x60big\x60" ∧ g.fragment.params = [.int 1] := by
  refine ⟨⟨rfl, ?_⟩, ⟨rfl, ?_⟩, rfl, ?_⟩
  · have hdrops : Drops [.column "id", .column "a"] (.column "id") := rfl
    obtain ⟨g, hg, -, -, hsame⟩ := exists_kept_of_drops hdrops []
    have hclear : ¬g.Collides (.column "id") := by
      rintro ⟨-, hdiffer⟩
      cases g <;> exact hdiffer
    obtain ⟨hsql, hparams⟩ := hsame hclear
    exact ⟨g, hg, hsql, hparams rfl⟩
  · have hdrops : Drops [.column "id", .aliased "a" "b"] (.aliased "a" "b") := rfl
    obtain ⟨g, hg, -, -, hsame⟩ := exists_kept_of_drops hdrops []
    -- the labelled column that is kept is of the same column
    have hclear : ¬g.Collides (.aliased "a" "b") := by
      rintro ⟨-, hdiffer⟩
      rcases List.mem_cons.1 hg with rfl | hg
      · exact hdiffer
      · obtain rfl := List.mem_singleton.1 hg
        exact hdiffer rfl
    obtain ⟨hsql, hparams⟩ := hsame hclear
    exact ⟨g, hg, hsql, hparams rfl⟩
  · have hdrops : Drops [.column "id", .raw "a > ?" (some "big") [.int 1]]
        (.raw "a > ?" (some "big") [.int 2]) := rfl
    obtain ⟨g, hg, -, hi, hsame⟩ := exists_kept_of_drops hdrops []
    rcases List.mem_cons.1 hg with rfl | hlast
    · exact absurd hi (by decide)
    · obtain rfl := List.mem_singleton.1 hlast
      have hclear : ¬(Field.raw "a > ?" (some "big") [.int 1]).Collides
          (.raw "a > ?" (some "big") [.int 2]) := by
        rintro ⟨-, hdiffer⟩
        exact hdiffer rfl
      obtain ⟨hsql, -⟩ := hsame hclear
      exact ⟨_, hg, hsql, rfl⟩

end SelectList

end Sqlwright
