import Sqlwright.Proofs.Rendering
import Sqlwright.Query.Step

/-!
# Fragments of the same text

Two arguments of a call are alike if they differ in nothing but the values that they bind, and each
value of the one corresponds to the value at the same place of the other. The correspondence is any
relation on values. Alike arguments give fragments of one text, whose parameters are linked place by
place: a name on both sides, or values that correspond.
-/

namespace Sqlwright

variable {R : Value → Value → Prop}

/-! ## Linked parameters -/

/-- Two parameters at one place: the same name, values that correspond, or one pattern around texts
that do. -/
inductive Linked (R : Value → Value → Prop) : Value → Value → Prop where
  | name (n : String) : Linked R (.text n) (.text n)
  | value {v w : Value} (h : R v w) : Linked R v w
  | contains {s t : String} (h : R (.text s) (.text t)) :
      Linked R (.text ("%" ++ s ++ "%")) (.text ("%" ++ t ++ "%"))
  | startsWith {s t : String} (h : R (.text s) (.text t)) :
      Linked R (.text (s ++ "%")) (.text (t ++ "%"))
  | endsWith {s t : String} (h : R (.text s) (.text t)) :
      Linked R (.text ("%" ++ s)) (.text ("%" ++ t))

theorem linked_names (names : List String) :
    List.Forall₂ (Linked R) (names.map .text) (names.map .text) := by
  induction names with
  | nil => exact .nil
  | cons n names ih => exact .cons (.name n) ih

theorem linked_values {vs ws : List Value} (h : List.Forall₂ R vs ws) :
    List.Forall₂ (Linked R) vs ws :=
  h.imp fun _ _ => .value

theorem map_eq_of_forall₂ {α β γ : Type} {S : α → β → Prop} {f : α → γ} {g : β → γ}
    (hfg : ∀ a b, S a b → f a = g b) {as : List α} {bs : List β} (h : List.Forall₂ S as bs) :
    as.map f = bs.map g := by
  rw [← List.forall₂_eq_eq_eq]
  exact List.rel_map hfg h

/-- A list has a partner if each of its elements has one. -/
theorem exists_forall₂_iff {α β : Type} {S : α → β → Prop} {as : List α} :
    (∃ bs, List.Forall₂ S as bs) ↔ ∀ a ∈ as, ∃ b, S a b := by
  induction as with
  | nil => exact ⟨fun _ _ h => absurd h List.not_mem_nil, fun _ => ⟨[], .nil⟩⟩
  | cons a as ih =>
    rw [List.forall_mem_cons, ← ih]
    constructor
    · rintro ⟨_, _ | ⟨hb, hbs⟩⟩
      exact ⟨⟨_, hb⟩, _, hbs⟩
    · rintro ⟨⟨b, hb⟩, bs, hbs⟩
      exact ⟨b :: bs, .cons hb hbs⟩

namespace Fragment

/-- Fragments of one text with linked parameters. -/
structure Alike (R : Value → Value → Prop) (f g : Fragment) : Prop where
  sql : f.sql = g.sql
  params : List.Forall₂ (Linked R) f.params g.params

theorem Alike.isBlank_eq {f g : Fragment} (h : f.Alike R g) : f.isBlank = g.isBlank := by
  rw [isBlank, isBlank, h.sql]

theorem Alike.enclose {f g : Fragment} (h : f.Alike R g) (before after : String) :
    (f.enclose before after).Alike R (g.enclose before after) where
  sql := by rw [sql_enclose, sql_enclose, h.sql]
  params := h.params

theorem Alike.join (m : String) {fs gs : List Fragment} (h : List.Forall₂ (Alike R) fs gs) :
    (join m fs).Alike R (join m gs) where
  sql := by rw [sql_join, sql_join, map_eq_of_forall₂ (fun _ _ hfg => hfg.sql) h]
  params := List.rel_flatMap h fun _ _ hfg => hfg.params

/-- A fragment of names is the same on both sides. -/
theorem alike_names (sql : String) (names : List String) :
    Alike R ⟨sql, names.map .text⟩ ⟨sql, names.map .text⟩ :=
  ⟨rfl, linked_names names⟩

end Fragment

/-! ## Conditions -/

namespace Condition

/-- Patterns of one form around texts that correspond. -/
inductive Pattern.Alike (R : Value → Value → Prop) : Pattern → Pattern → Prop where
  | verbatim {s t : String} (h : R (.text s) (.text t)) : Alike R (.verbatim s) (.verbatim t)
  | contains {s t : String} (h : R (.text s) (.text t)) : Alike R (.contains s) (.contains t)
  | startsWith {s t : String} (h : R (.text s) (.text t)) : Alike R (.startsWith s) (.startsWith t)
  | endsWith {s t : String} (h : R (.text s) (.text t)) : Alike R (.endsWith s) (.endsWith t)

/-- The same operators on values that correspond. A flag is not bound, so flags may differ. -/
inductive Op.Alike (R : Value → Value → Prop) : Op → Op → Prop where
  | compare (relation : Relation) {v w : Value} (h : R v w) :
      Alike R (.compare relation v) (.compare relation w)
  | like (negated : Bool) {p q : Pattern} (h : p.Alike R q) :
      Alike R (.like negated p) (.like negated q)
  | regexp {v w : Value} (h : R v w) : Alike R (.regexp v) (.regexp w)
  | oneOf (negated : Bool) {vs ws : List Value} (h : List.Forall₂ R vs ws) :
      Alike R (.oneOf negated vs) (.oneOf negated ws)
  | between (negated : Bool) {vs ws : List Value} (h : List.Forall₂ R vs ws) :
      Alike R (.between negated vs) (.between negated ws)
  | isNull (negated : Bool) (v w : Value) : Alike R (.isNull negated v) (.isNull negated w)

/-- The same tests of values that correspond. -/
inductive Test.Alike (R : Value → Value → Prop) : Test → Test → Prop where
  | value {v w : Value} (h : R v w) : Alike R (.value v) (.value w)
  | oneOf {vs ws : List Value} (h : List.Forall₂ R vs ws) : Alike R (.oneOf vs) (.oneOf ws)
  | ops {os ps : List Op} (h : List.Forall₂ (Op.Alike R) os ps) : Alike R (.ops os) (.ops ps)

mutual

/-- Entries that differ in nothing but their values. -/
inductive Entry.Alike (R : Value → Value → Prop) : Entry → Entry → Prop where
  | column (name : String) {t u : Test} (h : t.Alike R u) :
      Entry.Alike R (.column name t) (.column name u)
  | group (c : Connective) {children others : List (List Entry)}
      (h : ChildrenAlike R children others) : Entry.Alike R (.group c children) (.group c others)
  | raw (sql : String) {vs ws : List Value} (h : List.Forall₂ R vs ws) :
      Entry.Alike R (.raw sql vs) (.raw sql ws)

/-- Conditions that differ in nothing but their values. -/
inductive NodeAlike (R : Value → Value → Prop) : List Entry → List Entry → Prop where
  | nil : NodeAlike R [] []
  | cons {entry other : Entry} {rest others : List Entry} (h : Entry.Alike R entry other)
      (hs : NodeAlike R rest others) : NodeAlike R (entry :: rest) (other :: others)

/-- Lists of conditions that differ in nothing but their values. -/
inductive ChildrenAlike (R : Value → Value → Prop) :
    List (List Entry) → List (List Entry) → Prop where
  | nil : ChildrenAlike R [] []
  | cons {child other : List Entry} {rest others : List (List Entry)} (h : NodeAlike R child other)
      (hs : ChildrenAlike R rest others) : ChildrenAlike R (child :: rest) (other :: others)

end

theorem Pattern.Alike.linked {p q : Pattern} (h : p.Alike R q) {keyword s t : String}
    (hs : p.text keyword = .ok s) (ht : q.text keyword = .ok t) :
    Linked R (.text s) (.text t) := by
  cases h with
  | verbatim h =>
    cases hs
    cases ht
    exact .value h
  | @contains s t h =>
    rw [Pattern.text] at hs ht
    split at hs <;> cases hs
    split at ht <;> cases ht
    exact .contains h
  | @startsWith s t h =>
    rw [Pattern.text] at hs ht
    split at hs <;> cases hs
    split at ht <;> cases ht
    exact .startsWith h
  | @endsWith s t h =>
    rw [Pattern.text] at hs ht
    split at hs <;> cases hs
    split at ht <;> cases ht
    exact .endsWith h

theorem alike_membership {column keyword label : String} {vs ws : List Value}
    (h : List.Forall₂ R vs ws) {f g : Fragment} (hf : membership column keyword label vs = .ok f)
    (hg : membership column keyword label ws = .ok g) : f.Alike R g := by
  rw [membership] at hf hg
  split at hf <;> cases hf
  split at hg <;> cases hg
  exact ⟨by rw [h.length_eq], linked_values h⟩

theorem alike_op {column : String} {o p : Op} (h : o.Alike R p) {f g : Fragment}
    (hf : o.fragment column = .ok f) (hg : p.fragment column = .ok g) : f.Alike R g := by
  cases h with
  | compare relation h =>
    cases hf
    cases hg
    exact ⟨rfl, .cons (.value h) .nil⟩
  | like negated h =>
    simp only [Op.fragment, bind_eq_ok_iff, pure_eq_ok_iff] at hf hg
    obtain ⟨s, hs, rfl⟩ := hf
    obtain ⟨t, ht, rfl⟩ := hg
    exact ⟨rfl, .cons (h.linked hs ht) .nil⟩
  | @regexp v w h =>
    cases v with
    | text s =>
      cases w with
      | text t =>
        rw [Op.fragment] at hf hg
        split at hf <;> cases hf
        split at hg <;> cases hg
        exact ⟨rfl, .cons (.value h) .nil⟩
      | _ => cases hg
    | _ => cases hf
  | oneOf negated h => exact alike_membership h hf hg
  | between negated h =>
    -- both have two bounds, or they are refused
    rcases h with _ | ⟨h₁, _ | ⟨h₂, _ | ⟨h₃, h⟩⟩⟩
    · cases hf
    · cases hf
    · cases hf
      cases hg
      exact ⟨rfl, .cons (.value h₁) (.cons (.value h₂) .nil)⟩
    · cases hf
  | isNull negated v w =>
    rw [Op.fragment] at hf hg
    split at hf <;> cases hf
    split at hg <;> cases hg
    exact ⟨rfl, .nil⟩

theorem alike_opFragments {column : String} {os ps : List Op}
    (h : List.Forall₂ (Op.Alike R) os ps) {fs gs : List Fragment}
    (hf : opFragments column os = .ok fs) (hg : opFragments column ps = .ok gs) :
    List.Forall₂ (Fragment.Alike R) fs gs := by
  induction h generalizing fs gs with
  | nil =>
    cases hf
    cases hg
    exact .nil
  | cons h _ ih =>
    simp only [opFragments, bind_eq_ok_iff, pure_eq_ok_iff] at hf hg
    obtain ⟨f, hf, fs, hfs, rfl⟩ := hf
    obtain ⟨g, hg, gs, hgs, rfl⟩ := hg
    exact .cons (alike_op h hf hg) (ih hfs hgs)

theorem alike_test {column : String} {t u : Test} (h : t.Alike R u) {fs gs : List Fragment}
    (hf : t.fragments column = .ok fs) (hg : u.fragments column = .ok gs) :
    List.Forall₂ (Fragment.Alike R) fs gs := by
  cases h with
  | value h =>
    cases hf
    cases hg
    exact .cons ⟨rfl, .cons (.value h) .nil⟩ .nil
  | oneOf h =>
    obtain ⟨f, hf', rfl⟩ := map_eq_ok_iff.1 hf
    obtain ⟨g, hg', rfl⟩ := map_eq_ok_iff.1 hg
    exact .cons (alike_membership h hf' hg') .nil
  | ops h => exact alike_opFragments h hf hg

theorem alike_columnFragments {name : String} {t u : Test} (h : t.Alike R u)
    {fs gs : List Fragment} (hf : columnFragments name t = .ok fs)
    (hg : columnFragments name u = .ok gs) : List.Forall₂ (Fragment.Alike R) fs gs := by
  rw [columnFragments] at hf hg
  split at hf
  · cases hf
  · rename_i hname
    rw [if_neg hname] at hg
    exact alike_test h hf hg

/-! ### Nodes -/

/-- Parts of one text and of one origin. -/
structure Part.Alike (R : Value → Value → Prop) (p q : Part) : Prop where
  fragment : p.fragment.Alike R q.fragment
  raw : p.raw = q.raw

theorem alike_spoken {ps qs : List Part} (h : List.Forall₂ (Part.Alike R) ps qs) :
    List.Forall₂ (Part.Alike R) (spoken ps) (spoken qs) :=
  List.rel_filter (fun _ _ hpq => by simp [hpq.fragment.isBlank_eq]) h

theorem alike_combine (c : Connective) {ps qs : List Part}
    (h : List.Forall₂ (Part.Alike R) ps qs) : (combine c ps).Alike R (combine c qs) where
  sql := by
    have hspoken := alike_spoken h
    have htext : ∀ crowded p q, Part.Alike R p q → p.text crowded = q.text crowded := by
      intro crowded p q hpq
      rw [Part.text, Part.text, hpq.raw, hpq.fragment.sql]
    rw [combine, combine, hspoken.length_eq, map_eq_of_forall₂ (htext _) hspoken]
  params := List.rel_flatMap h fun _ _ hpq => hpq.fragment.params

theorem alike_combineChildren (c : Connective) {fs gs : List Fragment}
    (h : List.Forall₂ (Fragment.Alike R) fs gs) :
    (combineChildren c fs).Alike R (combineChildren c gs) where
  sql := by
    have hsaid : List.Forall₂ (Fragment.Alike R) (fs.filter fun f => !f.isBlank)
        (gs.filter fun g => !g.isBlank) :=
      List.rel_filter (fun _ _ hfg => by simp [hfg.isBlank_eq]) h
    rw [combineChildren, combineChildren,
      map_eq_of_forall₂ (fun _ _ hfg => by rw [hfg.sql]) hsaid]
  params := List.rel_flatMap h fun _ _ hfg => hfg.params

mutual

theorem alike_entry {entry other : Entry} (h : entry.Alike R other) {ps qs : List Part}
    (hp : entry.parts = .ok ps) (hq : other.parts = .ok qs) :
    List.Forall₂ (Part.Alike R) ps qs := by
  cases h with
  | column name h =>
    obtain ⟨fs, hfs, rfl⟩ := parts_column_eq_ok_iff.1 hp
    obtain ⟨gs, hgs, rfl⟩ := parts_column_eq_ok_iff.1 hq
    exact List.rel_map (fun _ _ hfg => ⟨hfg, rfl⟩) (alike_columnFragments h hfs hgs)
  | group c h =>
    obtain ⟨-, fs, hfs, rfl⟩ := parts_group_eq_ok_iff.1 hp
    obtain ⟨-, gs, hgs, rfl⟩ := parts_group_eq_ok_iff.1 hq
    exact .cons ⟨alike_combineChildren c (alike_children h hfs hgs), rfl⟩ .nil
  | raw sql h =>
    obtain rfl := parts_raw_eq_ok_iff.1 hp
    obtain rfl := parts_raw_eq_ok_iff.1 hq
    exact .cons ⟨⟨rfl, linked_values h⟩, rfl⟩ .nil

theorem alike_node {node other : List Entry} (h : NodeAlike R node other) {ps qs : List Part}
    (hp : nodeParts node = .ok ps) (hq : nodeParts other = .ok qs) :
    List.Forall₂ (Part.Alike R) ps qs := by
  cases h with
  | nil =>
    cases hp
    cases hq
    exact .nil
  | cons h hs =>
    obtain ⟨ps₁, hp₁, ps₂, hp₂, rfl⟩ := nodeParts_cons_eq_ok_iff.1 hp
    obtain ⟨qs₁, hq₁, qs₂, hq₂, rfl⟩ := nodeParts_cons_eq_ok_iff.1 hq
    exact List.rel_append (alike_entry h hp₁ hq₁) (alike_node hs hp₂ hq₂)

theorem alike_children {c : Connective} {children others : List (List Entry)}
    (h : ChildrenAlike R children others) {fs gs : List Fragment}
    (hf : childPredicates c children = .ok fs) (hg : childPredicates c others = .ok gs) :
    List.Forall₂ (Fragment.Alike R) fs gs := by
  cases h with
  | nil =>
    cases hf
    cases hg
    exact .nil
  | cons h hs =>
    obtain ⟨ps, hps, fs, hfs, rfl⟩ := childPredicates_cons_eq_ok_iff.1 hf
    obtain ⟨qs, hqs, gs, hgs, rfl⟩ := childPredicates_cons_eq_ok_iff.1 hg
    exact .cons (alike_combine c (alike_node h hps hqs)) (alike_children hs hfs hgs)

end

/-- Conditions that differ in nothing but their values have predicates of one text. -/
theorem alike_predicate {c : Connective} {tree other : Tree} (h : NodeAlike R tree other)
    {f g : Fragment} (hf : predicate c tree = .ok f) (hg : predicate c other = .ok g) :
    f.Alike R g := by
  obtain ⟨ps, hps, rfl⟩ := predicate_eq_ok_iff.1 hf
  obtain ⟨qs, hqs, rfl⟩ := predicate_eq_ok_iff.1 hg
  exact alike_combine c (alike_node h hps hqs)

end Condition

end Sqlwright
