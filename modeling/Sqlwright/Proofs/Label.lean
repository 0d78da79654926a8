import Sqlwright.Proofs.Balance
import Sqlwright.Proofs.Inlining

/-!
# Labels of expressions

The label of an expression in the caller's own words is the one name that a select list quotes in
its text. It is quoted part by part, as a qualified name is, and its marks stay what they are: so it
reads back as one name exactly if it has no dot, and it leaves the placeholders of the statement
alone exactly if none of its own runs of marks is one (`Field.fragment_labelled`).
-/

namespace Sqlwright

open Lexeme (lex path)

theorem splitOn_eq_singleton_iff {α : Type} [DecidableEq α] {a : α} {as : List α} :
    as.splitOn a = [as] ↔ a ∉ as := by
  constructor
  · intro h hm
    obtain ⟨front, back, rfl⟩ := List.append_of_mem hm
    have hlength := congrArg List.length h
    have hfront := List.length_pos_iff.2 (List.splitOn_ne_nil a front)
    have hback := List.length_pos_iff.2 (List.splitOn_ne_nil a back)
    rw [List.splitOn_append_cons_self, List.length_append, List.length_singleton] at hlength
    omega
  · exact List.splitOn_eq_singleton

namespace Lexeme

/-- A path is one name if it has one part. -/
theorem path_eq_singleton_iff {parts : List (List Char)} {name : String} :
    path parts = [.name name] ↔ parts = [name.toList] := by
  match parts with
  | [] => simp [path]
  | [part] => simp [path, ← String.toList_inj]
  | part :: other :: rest =>
    rw [path_cons part (List.cons_ne_nil other rest)]
    simp

theorem lex_quote (name : String) :
    lex (Name.quote name) = some (path (name.toList.splitOn '.')) := by
  have h := lexFrom_quoteName name isApart_nil
  rw [List.append_nil] at h
  rw [lex, h]
  simp [lexFrom, Pending.finish]

/-- A quoted name reads back as one name if it has no dot. -/
theorem lex_quote_iff {name : String} :
    lex (Name.quote name) = some [.name name] ↔ '.' ∉ name.toList := by
  rw [lex_quote, Option.some.injEq, path_eq_singleton_iff, splitOn_eq_singleton_iff]

end Lexeme

namespace Name

/-- The backtick at the end of a quoted name keeps its marks apart from those behind it. -/
theorem count_quote_append (name rest : String) :
    Placeholder.count (quote name ++ rest) = Placeholder.count name + Placeholder.count rest := by
  have hquoted : ∀ t, Placeholder.countFrom 0 ((quote name).toList ++ t)
      = Placeholder.countFrom 0 ('\x60' :: name.toList.flatMap quoteChar)
        + Placeholder.countFrom 0 t := by
    intro t
    rw [quote, String.toList_ofList, ← List.cons_append, List.append_assoc]
    exact Placeholder.countFrom_append_of_ne 0 _ (by decide) t
  have hname := count_quote name
  have hnil := hquoted []
  rw [List.append_nil] at hnil
  rw [Placeholder.count, hnil] at hname
  rw [Placeholder.count, String.toList_append, hquoted, ← hname]
  rfl

end Name

namespace Field

open Placeholder (count)

/-- The label of an expression is quoted behind it, and whatever follows keeps its placeholders. The
label is one name exactly if it has no dot, and adds no placeholder exactly if it holds none. -/
theorem fragment_labelled (sql label : String) (params : List Value) :
    ∃ quoted, (raw sql (some label) params).fragment = ⟨sql ++ " AS " ++ quoted, params⟩ ∧
      lex quoted = some (path (label.toList.splitOn '.')) ∧
      (lex quoted = some [.name label] ↔ '.' ∉ label.toList) ∧
      (∀ rest, count (sql ++ " AS " ++ quoted ++ rest) = count sql + count label + count rest) ∧
      (count (sql ++ " AS " ++ quoted) = count sql ↔ count label = 0) := by
  have hcount : ∀ rest, count (sql ++ " AS " ++ Name.quote label ++ rest)
      = count sql + count label + count rest := by
    intro rest
    rw [String.append_assoc, Placeholder.count_append_append (by decide) (by decide),
      Name.count_quote_append, Nat.add_assoc]
  refine ⟨Name.quote label, rfl, Lexeme.lex_quote label, Lexeme.lex_quote_iff, hcount, ?_⟩
  have hempty : count "" = 0 := rfl
  rw [← String.append_empty (s := sql ++ " AS " ++ Name.quote label), hcount, hempty]
  omega

/-- A dot parts the label in two names, and a mark in it is counted as a placeholder. -/
theorem fragment_dotted_and_marked :
    (¬∃ quoted, (raw "NOW()" (some "a.b") []).fragment.sql = "NOW()" ++ " AS " ++ quoted ∧
      lex quoted = some [.name "a.b"]) ∧
    count (raw "NOW()" (some "n?") []).fragment.sql ≠ count "NOW()" := by
  constructor
  · rintro ⟨quoted, hsql, hname⟩
    have hquoted : Name.quote "a.b" = quoted := String.append_right_inj _ |>.1 hsql
    rw [← hquoted, Lexeme.lex_quote_iff] at hname
    exact hname (by decide)
  · decide

end Field

end Sqlwright
