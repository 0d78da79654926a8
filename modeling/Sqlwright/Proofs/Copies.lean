import Mathlib.Data.List.Induction
import Mathlib.Logic.Relation
import Sqlwright.Proofs.Distinct

/-!
# Copies of fields

A select list says the same with any number of copies of its fields, each somewhere behind a field
that it is a copy of. What is kept of a list are the fields that no earlier field shares its text
with, in their order, so one for each text that the list has (`SelectList.fragment_of_copies`).
-/

namespace Sqlwright

namespace SelectList

/-! ## One copy -/

/-- One list is another with a copy of a field more, somewhere behind that field. -/
def AddsCopy (fields more : SelectList) : Prop :=
  ∃ before f after, f ∈ before ∧ fields = before ++ after ∧ more = before ++ f :: after

/-- A copy is left out. -/
theorem AddsCopy.distinct_eq {fields more : SelectList} (h : AddsCopy fields more) :
    distinct more = distinct fields := by
  obtain ⟨before, f, after, hf, rfl, rfl⟩ := h
  have hseen : f.identity ∈ before.map Field.identity ++ [] := by
    rw [List.append_nil]
    exact List.mem_map_of_mem hf
  rw [distinct, distinct, distinctFrom_append, distinctFrom_append, distinctFrom, if_pos hseen]

/-- Any number of copies is left out. -/
theorem distinct_of_copies {fields more : SelectList}
    (h : Relation.ReflTransGen AddsCopy fields more) : distinct more = distinct fields := by
  induction h with
  | refl => rfl
  | tail _ hcopy ih => rw [hcopy.distinct_eq, ih]

/-! ## What is kept -/

/-- The fields that no field in front shares its text with, in their order. -/
def firsts (fields : SelectList) : SelectList :=
  (fields.zipIdx.filter fun e =>
    decide (e.1.identity ∉ (fields.take e.2).map Field.identity)).map Prod.fst

/-- What comes first in a list does not depend on what follows. -/
theorem firsts_concat (before : SelectList) (f : Field) :
    firsts (before ++ [f])
      = if f.identity ∈ before.map Field.identity then firsts before
        else firsts before ++ [f] := by
  have hfront : (before.zipIdx.filter fun e =>
        decide (e.1.identity ∉ ((before ++ [f]).take e.2).map Field.identity))
      = before.zipIdx.filter fun e =>
        decide (e.1.identity ∉ (before.take e.2).map Field.identity) := by
    apply List.filter_congr
    intro e he
    have hlt : e.2 < before.length := List.snd_lt_of_mem_zipIdx he
    rw [List.take_append_of_le_length (Nat.le_of_lt hlt)]
  rw [firsts, List.zipIdx_append, List.filter_append, List.map_append, hfront]
  show firsts before ++ _ = _
  by_cases hf : f.identity ∈ before.map Field.identity
  · simp [hf]
  · simp [hf]

theorem distinct_eq_firsts (fields : SelectList) : distinct fields = firsts fields := by
  induction fields using List.reverseRecOn with
  | nil => rfl
  | append_singleton before f ih => rw [distinct_concat, firsts_concat, ih]

/-- Of every text that the list has, one field is kept. -/
theorem count_identity_distinct (fields : SelectList) (text : String) :
    ((distinct fields).map Field.identity).count text
      = if text ∈ fields.map Field.identity then 1 else 0 := by
  induction fields using List.reverseRecOn with
  | nil => rfl
  | append_singleton before f ih =>
    have hmem : text ∈ (before ++ [f]).map Field.identity ↔
        text ∈ before.map Field.identity ∨ text = f.identity := by
      rw [List.map_append, List.map_singleton, List.mem_append, List.mem_singleton]
    simp only [distinct_concat, hmem]
    by_cases hf : f.identity ∈ before.map Field.identity
    · have hsame : (text ∈ before.map Field.identity ∨ text = f.identity) ↔
          text ∈ before.map Field.identity := by
        apply or_iff_left_of_imp
        rintro rfl
        exact hf
      rw [if_pos hf, ih]
      simp only [hsame]
    · rw [if_neg hf, List.map_append, List.count_append, ih, List.map_singleton,
        List.count_singleton]
      by_cases htext : text = f.identity
      · rw [htext, if_neg hf, if_pos (beq_self_eq_true _), if_pos (.inr rfl)]
      · have hother : (f.identity == text) = false := by simpa using Ne.symm htext
        simp only [htext, or_false, hother]
        rfl

/-- Copies of its fields, any number of them and each behind a field that it is a copy of, change
neither the SQL of a select list nor its parameters. The fields that are kept of a list are those
that no earlier field shares its text with, in their order, and every text that the list has is that
of exactly one of them. -/
theorem fragment_of_copies (fields : SelectList) :
    (∀ more : SelectList, Relation.ReflTransGen AddsCopy fields more →
      more.fragment.sql = fields.fragment.sql ∧
        more.fragment.params = fields.fragment.params) ∧
    distinct fields = firsts fields ∧
    ∀ text, ((distinct fields).map Field.identity).count text
      = if text ∈ fields.map Field.identity then 1 else 0 := by
  refine ⟨?_, distinct_eq_firsts fields, count_identity_distinct fields⟩
  intro more h
  rw [fragment, fragment, distinct_of_copies h]
  exact ⟨rfl, rfl⟩

/-- A copy of a column at the end, and then one of an expression between others. -/
theorem fragment_of_copied_expression :
    (SelectList.fragment [.column "id", .raw "a > ?" none [.int 5], .aliased "b" "x",
        .raw "a > ?" none [.int 5], .star, .column "id"]).sql = "SELECT ??, a > ?, ?? AS ??, *" ∧
    (SelectList.fragment [.column "id", .raw "a > ?" none [.int 5], .aliased "b" "x",
        .raw "a > ?" none [.int 5], .star, .column "id"]).params
      = [.text "id", .int 5, .text "b", .text "x"] := by
  have hcopies : Relation.ReflTransGen AddsCopy
      [.column "id", .raw "a > ?" none [.int 5], .aliased "b" "x", .star]
      [.column "id", .raw "a > ?" none [.int 5], .aliased "b" "x", .raw "a > ?" none [.int 5],
        .star, .column "id"] := by
    refine .tail (.tail .refl ⟨[.column "id", .raw "a > ?" none [.int 5], .aliased "b" "x", .star],
      .column "id", [], by simp, rfl, rfl⟩) ?_
    exact ⟨[.column "id", .raw "a > ?" none [.int 5], .aliased "b" "x"],
      .raw "a > ?" none [.int 5], [.star, .column "id"], by simp, rfl, rfl⟩
  obtain ⟨hsame, -⟩ := fragment_of_copies
    [.column "id", .raw "a > ?" none [.int 5], .aliased "b" "x", .star]
  obtain ⟨hsql, hparams⟩ := hsame _ hcopies
  constructor
  · rw [hsql]
    decide
  · rw [hparams]
    decide

end SelectList

end Sqlwright
