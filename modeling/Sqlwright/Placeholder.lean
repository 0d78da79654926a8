import Sqlwright.Literal
import Sqlwright.Name

/-!
# Placeholders

In the text of a statement a single `?` stands for a value and a double one for a name; three or
more in a row are no placeholder. Filling a text puts the parameters in the places of its
placeholders, in order, and leaves what is behind the last parameter as it is.
-/

namespace Sqlwright.Placeholder

/-- What a run of marks counts for: one if it is a placeholder. -/
def weight (run : Nat) : Nat := if run = 1 ∨ run = 2 then 1 else 0

/-- The number of placeholders in a text that continues a run of marks. -/
def countFrom (run : Nat) : List Char → Nat
  | [] => weight run
  | c :: cs => if c = '?' then countFrom (run + 1) cs else weight run + countFrom 0 cs

/-- The number of placeholders of a text. -/
def count (sql : String) : Nat := countFrom 0 sql.toList

/-- The text that a name placeholder shows for a value: a text is quoted as a name, and so is the
literal of anything else. -/
def nameText (v : Value) : String := Name.quote (v.text?.getD v.literal)

/-- The text of a finished run of marks and the parameters left after it. -/
def close (run : Nat) (params : List Value) : List Char × List Value :=
  match run, params with
  | 1, v :: vs => (v.literal.toList, vs)
  | 2, v :: vs => ((nameText v).toList, vs)
  | run, params => (List.replicate run '?', params)

@[simp] theorem close_zero (params : List Value) : close 0 params = ([], params) := by
  cases params <;> rfl

/-- Fills a text that continues a run of marks. -/
def fillFrom (run : Nat) : List Char → List Value → List Char
  | [], params => (close run params).1
  | c :: cs, params =>
    if c = '?' then fillFrom (run + 1) cs params
    else (close run params).1 ++ c :: fillFrom 0 cs (close run params).2

theorem fillFrom_zero_cons {c : Char} (hc : c ≠ '?') (cs : List Char) (params : List Value) :
    fillFrom 0 (c :: cs) params = c :: fillFrom 0 cs params := by
  rw [fillFrom, if_neg hc, close_zero, List.nil_append]

/-- The text with its placeholders replaced by the parameters. -/
def fill (sql : String) (params : List Value) : String :=
  String.ofList (fillFrom 0 sql.toList params)

end Sqlwright.Placeholder
