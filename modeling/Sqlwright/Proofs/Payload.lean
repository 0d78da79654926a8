import Sqlwright.Insertion
import Sqlwright.Assignment
import Sqlwright.SelectList
import Sqlwright.Proofs.Alike

/-!
# Payloads of the same text

Select lists, assignments and rows that differ in nothing but their values give fragments of one
text with linked parameters. Nothing on the way asks for a value: repeated fields are recognised by
their text, time columns and the primary key by their names, and a row is aligned with the first one
by its columns.
-/

namespace Sqlwright

variable {R : Value → Value → Prop}

/-! ## Select lists -/

/-- Fields that differ in nothing but the parameters of an expression. -/
inductive Field.Alike (R : Value → Value → Prop) : Field → Field → Prop where
  | star : Alike R .star .star
  | column (name : String) : Alike R (.column name) (.column name)
  | aliased (column label : String) : Alike R (.aliased column label) (.aliased column label)
  | raw (sql : String) (label : Option String) {vs ws : List Value} (h : List.Forall₂ R vs ws) :
      Alike R (.raw sql label vs) (.raw sql label ws)

theorem Field.Alike.identity_eq {f g : Field} (h : f.Alike R g) : f.identity = g.identity := by
  cases h with
  | star => rfl
  | column name => rfl
  | aliased column label => rfl
  | raw sql label h => cases label <;> rfl

theorem Field.Alike.fragment {f g : Field} (h : f.Alike R g) : f.fragment.Alike R g.fragment := by
  cases h with
  | star => exact ⟨rfl, .nil⟩
  | column name =>
    rw [Field.fragment]
    split
    · exact ⟨rfl, .nil⟩
    · exact Fragment.alike_names "??" [name]
  | aliased column label => exact Fragment.alike_names "?? AS ??" [column, label]
  | raw sql label h => cases label <;> exact ⟨rfl, linked_values h⟩

namespace SelectList

theorem alike_distinctFrom {fs gs : SelectList} (h : List.Forall₂ (Field.Alike R) fs gs)
    (seen : List String) :
    List.Forall₂ (Field.Alike R) (distinctFrom seen fs) (distinctFrom seen gs) := by
  induction h generalizing seen with
  | nil => exact .nil
  | cons h _ ih =>
    rw [distinctFrom, distinctFrom, h.identity_eq]
    split
    · exact ih seen
    · exact .cons h (ih _)

theorem alike_fragment {fs gs : SelectList} (h : List.Forall₂ (Field.Alike R) fs gs) :
    fs.fragment.Alike R gs.fragment := by
  have hdistinct : List.Forall₂ (Field.Alike R) fs.distinct gs.distinct := alike_distinctFrom h []
  rw [fragment, fragment]
  generalize fs.distinct = ds, gs.distinct = es at hdistinct
  have hlist := Fragment.Alike.join ", " (List.rel_map (fun _ _ hf => hf.fragment) hdistinct)
  cases hdistinct with
  | nil => exact ⟨rfl, .nil⟩
  | cons _ _ => exact hlist.enclose "SELECT " ""

end SelectList

/-! ## Keyed lists -/

namespace Keyed

variable {α : Type} {S : α → α → Prop}

/-- The same keys in the same order, above values that correspond. -/
def Alike (S : α → α → Prop) (k l : Keyed α) : Prop :=
  List.Forall₂ (fun e f => e.1 = f.1 ∧ S e.2 f.2) k.entries l.entries

theorem Alike.keys_eq {k l : Keyed α} (h : k.Alike S l) : k.keys = l.keys :=
  map_eq_of_forall₂ (fun _ _ he => he.1) h

theorem Alike.contains_eq {k l : Keyed α} (h : k.Alike S l) (key : String) :
    k.contains key = l.contains key := by
  rw [contains, contains, h.keys_eq]

theorem Alike.isEmpty_eq {k l : Keyed α} (h : k.Alike S l) : k.isEmpty = l.isEmpty := by
  rw [isEmpty, isEmpty, Bool.eq_iff_iff, List.isEmpty_iff_length_eq_zero,
    List.isEmpty_iff_length_eq_zero, List.Forall₂.length_eq h]

theorem alike_put {es fs : List (String × α)}
    (h : List.Forall₂ (fun e f => e.1 = f.1 ∧ S e.2 f.2) es fs) (key : String) {a b : α}
    (hab : S a b) :
    List.Forall₂ (fun e f => e.1 = f.1 ∧ S e.2 f.2) (put key a es) (put key b fs) := by
  induction h with
  | nil => exact .cons ⟨rfl, hab⟩ .nil
  | cons he hs ih =>
    rw [put, put, he.1]
    split
    · exact .cons ⟨rfl, hab⟩ hs
    · exact .cons he ih

theorem Alike.insert {k l : Keyed α} (h : k.Alike S l) (key : String) {a b : α} (hab : S a b) :
    (k.insert key a).Alike S (l.insert key b) :=
  alike_put h key hab

theorem Alike.erase {k l : Keyed α} (h : k.Alike S l) (key : String) :
    (k.erase key).Alike S (l.erase key) :=
  List.rel_filter (fun _ _ he => by simp [he.1]) h

theorem alike_lookup {es fs : List (String × α)}
    (h : List.Forall₂ (fun e f => e.1 = f.1 ∧ S e.2 f.2) es fs) {key : String} {a b : α}
    (ha : es.lookup key = some a) (hb : fs.lookup key = some b) : S a b := by
  induction h with
  | nil => cases ha
  | @cons e f _ _ he _ ih =>
    rw [List.lookup_cons] at ha hb
    rw [he.1] at ha
    cases hkey : key == f.1 with
    | true =>
      rw [hkey] at ha hb
      cases ha
      cases hb
      exact he.2
    | false =>
      rw [hkey] at ha hb
      exact ih ha hb

end Keyed

/-! ## Assignments -/

/-- The same treatment of a column, with values that correspond. -/
inductive Assignment.Alike (R : Value → Value → Prop) : Assignment → Assignment → Prop where
  | set {v w : Value} (h : R v w) : Alike R (.set v) (.set w)
  | increment {v w : Value} (h : R v w) : Alike R (.increment v) (.increment w)
  | decrement {v w : Value} (h : R v w) : Alike R (.decrement v) (.decrement w)

theorem Assignment.Alike.fragment {a b : Assignment} (h : a.Alike R b) (column : String) :
    (a.fragment column).Alike R (b.fragment column) := by
  cases h with
  | set h => exact ⟨rfl, .cons (.name column) (.cons (.value h) .nil)⟩
  | increment h =>
    exact ⟨rfl, .cons (.name column) (.cons (.name column) (.cons (.value h) .nil))⟩
  | decrement h =>
    exact ⟨rfl, .cons (.name column) (.cons (.name column) (.cons (.value h) .nil))⟩

/-- Options of an UPDATE that differ in nothing but the time they write. -/
structure UpdateOptions.Alike (R : Value → Value → Prop) (o p : UpdateOptions) : Prop where
  timestamps : o.timestamps = p.timestamps
  utimeField : o.utimeField = p.utimeField
  utimeStamp : p.timestamps = true → ∀ n, R (o.utimeStamp.reading n) (p.utimeStamp.reading n)
  primaryKey : o.primaryKey = p.primaryKey

namespace Assignments

variable {values others : Assignments}

theorem alike_stamped {o p : UpdateOptions} (ho : o.Alike R p)
    (h : values.Alike (Assignment.Alike R) others) :
    (values.stamped o).Alike (Assignment.Alike R) (others.stamped p) := by
  rw [stamped, stamped, ho.timestamps, ho.utimeField]
  split
  · rename_i ht
    exact h.insert p.utimeField (.set (ho.utimeStamp ht 0))
  · exact h

theorem alike_withoutKey {o p : UpdateOptions} (ho : o.Alike R p)
    (h : values.Alike (Assignment.Alike R) others) :
    (values.withoutKey o).Alike (Assignment.Alike R) (others.withoutKey p) := by
  rw [withoutKey, withoutKey, ho.primaryKey]
  split
  · exact h.erase _
  · exact h

theorem alike_prepare {o p : UpdateOptions} (ho : o.Alike R p)
    (h : values.Alike (Assignment.Alike R) others) {prepared preparedOthers : Assignments}
    (hv : values.prepare o = .ok prepared) (hw : others.prepare p = .ok preparedOthers) :
    prepared.Alike (Assignment.Alike R) preparedOthers := by
  simp only [prepare] at hv hw
  split at hv
  · cases hv
  · split at hv <;> cases hv
    split at hw
    · cases hw
    · split at hw <;> cases hw
      exact alike_withoutKey ho (alike_stamped ho h)

theorem alike_fragment (h : values.Alike (Assignment.Alike R) others) {f g : Fragment}
    (hf : values.fragment = .ok f) (hg : others.fragment = .ok g) : f.Alike R g := by
  obtain ⟨-, rfl⟩ := fragment_eq_ok_iff.1 hf
  obtain ⟨-, rfl⟩ := fragment_eq_ok_iff.1 hg
  refine (Fragment.Alike.join ", " (List.rel_map (fun e e' he => ?_) h)).enclose "SET " ""
  rw [he.1]
  exact he.2.fragment e'.1

end Assignments

/-! ## Rows -/

/-- Options of an INSERT that differ in nothing but the values and the times they write. -/
structure InsertOptions.Alike (R : Value → Value → Prop) (o p : InsertOptions) : Prop where
  ignore : o.ignore = p.ignore
  onDuplicate : Option.Rel (Keyed.Alike R) o.onDuplicate p.onDuplicate
  timestamps : o.timestamps = p.timestamps
  ctimeField : o.ctimeField = p.ctimeField
  utimeField : o.utimeField = p.utimeField
  ctimeStamp : p.timestamps = true → ∀ n, R (o.ctimeStamp.reading n) (p.ctimeStamp.reading n)
  utimeStamp : p.timestamps = true → ∀ n, R (o.utimeStamp.reading n) (p.utimeStamp.reading n)

namespace Insertion

/-- A row lacks a time column or not, whatever its values, so the readings are numbered alike. -/
theorem alike_stampColumn {row other : Row} (h : row.Alike R other) (column : String)
    {s t : Stamp} (hs : ∀ n, R (s.reading n) (t.reading n)) (next : Nat) :
    (stampColumn column s next row).1.Alike R (stampColumn column t next other).1 ∧
      (stampColumn column s next row).2 = (stampColumn column t next other).2 := by
  rw [stampColumn, stampColumn, h.contains_eq]
  split
  · exact ⟨h, rfl⟩
  · exact ⟨h.insert column (hs next), rfl⟩

theorem alike_stampFrom {o p : InsertOptions} (ho : o.Alike R p) (ht : p.timestamps = true)
    {rows others : List Row} (h : List.Forall₂ (Keyed.Alike R) rows others) (c u : Nat) :
    List.Forall₂ (Keyed.Alike R) (stampFrom o c u rows) (stampFrom p c u others) := by
  induction h generalizing c u with
  | nil => exact .nil
  | cons hrow _ ih =>
    rw [stampFrom, stampFrom, ho.ctimeField, ho.utimeField]
    obtain ⟨hcreated, hc⟩ := alike_stampColumn hrow p.ctimeField (ho.ctimeStamp ht) c
    obtain ⟨hupdated, hu⟩ := alike_stampColumn hcreated p.utimeField (ho.utimeStamp ht) u
    rw [hc, hu]
    exact .cons hupdated (ih _ _)

theorem alike_stamped {o p : InsertOptions} (ho : o.Alike R p) {rows others : List Row}
    (h : List.Forall₂ (Keyed.Alike R) rows others) :
    List.Forall₂ (Keyed.Alike R) (stamped o rows) (stamped p others) := by
  rw [stamped, stamped, ho.timestamps]
  split
  · rename_i ht
    exact alike_stampFrom ho ht h 0 0
  · exact h

theorem alike_mapM_get? {columns : List String} {row other : Row} (h : row.Alike R other)
    {vs ws : List Value} (hv : columns.mapM row.get? = some vs)
    (hw : columns.mapM other.get? = some ws) : List.Forall₂ R vs ws := by
  rw [mapM_eq_some_iff] at hv hw
  induction hv generalizing ws with
  | nil =>
    cases hw
    exact .nil
  | cons hcolumn _ ih =>
    obtain _ | ⟨hother, hws⟩ := hw
    exact .cons (Keyed.alike_lookup h hcolumn hother) (ih hws)

theorem alike_align? {columns : List String} {row other : Row} (h : row.Alike R other)
    {vs ws : List Value} (hv : align? columns row = some vs) (hw : align? columns other = some ws) :
    List.Forall₂ R vs ws := by
  rw [align?] at hv hw
  split at hv
  · split at hw
    · exact alike_mapM_get? h hv hw
    · cases hw
  · cases hv

theorem alike_alignFrom {columns : List String} {rows others : List Row}
    (h : List.Forall₂ (Keyed.Alike R) rows others) {number : Nat} {vs ws : List Value}
    (hv : alignFrom columns number rows = .ok vs) (hw : alignFrom columns number others = .ok ws) :
    List.Forall₂ R vs ws := by
  induction h generalizing number vs ws with
  | nil =>
    cases hv
    cases hw
    exact .nil
  | cons hrow _ ih =>
    rw [alignFrom] at hv hw
    split at hv
    · cases hv
    · rename_i hfirst
      split at hw
      · cases hw
      · rename_i hother
        simp only [bind_eq_ok_iff, pure_eq_ok_iff] at hv hw
        obtain ⟨vs, hvs, rfl⟩ := hv
        obtain ⟨ws, hws, rfl⟩ := hw
        exact List.rel_append (alike_align? hrow hfirst hother) (ih hvs hws)

theorem alike_duplicateFragment {row other : Option Row} (h : Option.Rel (Keyed.Alike R) row other) :
    (duplicateFragment row).Alike R (duplicateFragment other) := by
  cases h with
  | none => exact ⟨rfl, .nil⟩
  | @some row other h =>
    rw [duplicateFragment, duplicateFragment, h.isEmpty_eq]
    split
    · exact ⟨rfl, .nil⟩
    · have hsize : row.size = other.size := List.Forall₂.length_eq h
      refine ⟨by rw [hsize], List.rel_flatMap h fun e e' he => ?_⟩
      rw [he.1]
      exact .cons (.name e'.1) (.cons (.value he.2) .nil)

theorem alike_fragment {table : String} {o p : InsertOptions} (ho : o.Alike R p)
    {rows others : List Row} (h : List.Forall₂ (Keyed.Alike R) rows others) {f g : Fragment}
    (hf : fragment table o rows = .ok f) (hg : fragment table p others = .ok g) : f.Alike R g := by
  obtain ⟨first, rest, vs, hfirst, hvs, rfl⟩ := exists_of_fragment hf
  obtain ⟨other, rest', ws, hother, hws, rfl⟩ := exists_of_fragment hg
  have hstamped := alike_stamped ho h
  rw [hfirst, hother] at hstamped
  -- the first rows have the same columns, and those fix the order of all values
  have hkeys : first.keys = other.keys := (List.forall₂_cons.1 hstamped).1.keys_eq
  have hduplicate := alike_duplicateFragment ho.onDuplicate
  rw [← hkeys] at hws
  have hvalues : List.Forall₂ (Linked R) vs ws := linked_values (alike_alignFrom hstamped hvs hws)
  rw [hkeys, ho.ignore, hstamped.length_eq]
  exact ⟨by rw [hduplicate.sql],
    List.rel_append (List.rel_append (linked_names (table :: other.keys)) hvalues)
      hduplicate.params⟩

end Insertion

end Sqlwright
