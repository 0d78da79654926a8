import Sqlwright.Proofs.SetList

/-!
# Tables written with their label

The text of a table may hold its label: `users u` is the table `users` under the label `u`. Such a
text is parted at its first two spaces, while spaces around it do not count when it is asked whether
it is blank. So a space in front leaves an empty name, and a second space between the two leaves no
label (`TableText.clause?_text`).
-/

namespace Sqlwright

open Text (isBlankText)

/-- A text without spaces that is not empty. -/
structure Word where
  text : String
  ne_empty : text ≠ ""
  no_space : ' ' ∉ text.toList

/-- A number of spaces. -/
def spaces (n : Nat) : String := String.ofList (List.replicate n ' ')

/-- How a table is written: its name, perhaps a label, and the spaces around them. -/
structure TableText where
  name : Word
  label : Option Word
  before : Nat
  /-- The spaces between name and label beyond the one that has to be there. -/
  between : Nat
  behind : Nat

/-- The calls that place a table. -/
inductive TableCall where
  | source
  | join (kind : JoinKind) (criterion : String)

/-! ## Words and spaces -/

namespace TableRef

@[simp] theorem firstWord_nil : firstWord [] = [] := rfl

@[simp] theorem firstWord_space (cs : List Char) : firstWord (' ' :: cs) = [] := rfl

@[simp] theorem afterSpace_nil : afterSpace [] = [] := rfl

@[simp] theorem afterSpace_space (cs : List Char) : afterSpace (' ' :: cs) = cs := rfl

theorem firstWord_replicate_append (n : Nat) (cs : List Char) :
    firstWord (List.replicate n ' ' ++ cs) = if n = 0 then firstWord cs else [] := by
  cases n <;> rfl

theorem firstWord_replicate (n : Nat) : firstWord (List.replicate n ' ') = [] := by
  cases n <;> rfl

theorem afterSpace_replicate (n : Nat) :
    afterSpace (List.replicate n ' ') = List.replicate (n - 1) ' ' := by
  cases n <;> rfl

end TableRef

namespace Word

open TableRef

variable (w : Word)

theorem ne_space {c : Char} (h : c ∈ w.text.toList) : (c != ' ') = true := by
  rw [bne_iff_ne]
  rintro rfl
  exact w.no_space h

@[simp] theorem firstWord_append (cs : List Char) :
    firstWord (w.text.toList ++ cs) = w.text.toList ++ firstWord cs :=
  List.takeWhile_append_of_pos fun _ => w.ne_space

@[simp] theorem afterSpace_append (cs : List Char) :
    afterSpace (w.text.toList ++ cs) = afterSpace cs := by
  rw [afterSpace, List.dropWhile_append_of_pos fun _ => w.ne_space]
  rfl

theorem nonEmpty?_text : nonEmpty? w.text = some w.text := if_neg w.ne_empty

end Word

/-! ## What is read of a text -/

namespace TableText

variable (t : TableText)

/-- The label with the spaces in front of it. -/
def labelText : Option Word → Nat → String
  | none, _ => ""
  | some a, between => " " ++ spaces between ++ a.text

/-- The whole text. -/
def text : String :=
  spaces t.before ++ t.name.text ++ labelText t.label t.between ++ spaces t.behind

/-- The table and the label that are meant. -/
def meant : TableRef := ⟨t.name.text, t.label.map Word.text⟩

/-- The table and the label that are read. -/
def found : TableRef :=
  match t.before with
  | 0 => ⟨t.name.text, if t.between = 0 then t.label.map Word.text else none⟩
  | 1 => ⟨"", some t.name.text⟩
  | _ + 2 => ⟨"", none⟩

/-- Whether there are no more spaces than have to be, but for those behind. -/
def IsTight : Prop := t.before = 0 ∧ (t.label = none ∨ t.between = 0)

/-- Whether neither the name nor a label has a character that is not blank. -/
def IsBlank : Prop := isBlankText t.name.text = true ∧ ∀ a ∈ t.label, isBlankText a.text = true

theorem toList_spaces (n : Nat) : (spaces n).toList = List.replicate n ' ' :=
  String.toList_ofList

theorem isBlankText_spaces (n : Nat) : isBlankText (spaces n) = true := by
  rw [isBlankText, toList_spaces, List.all_replicate]
  split <;> rfl

theorem isBlankText_append (s s' : String) :
    isBlankText (s ++ s') = (isBlankText s && isBlankText s') := by
  rw [isBlankText, String.toList_append, List.all_append]
  rfl

theorem isBlankText_text : isBlankText t.text = true ↔ t.IsBlank := by
  have hspace : isBlankText " " = true := rfl
  rw [text, IsBlank]
  cases t.label <;> simp [labelText, isBlankText_append, isBlankText_spaces, hspace]

open TableRef

/-- What stands behind the name. -/
def rest : List Char := (labelText t.label t.between ++ spaces t.behind).toList

theorem toList_text :
    t.text.toList = List.replicate t.before ' ' ++ (t.name.text.toList ++ t.rest) := by
  simp only [text, rest, String.toList_append, toList_spaces, List.append_assoc]

/-- The name ends where the rest begins. -/
theorem firstWord_rest : firstWord t.rest = [] := by
  rw [rest]
  cases t.label with
  | none => rw [labelText, String.empty_append, toList_spaces, firstWord_replicate]
  | some a =>
    simp only [labelText, String.toList_append, List.append_assoc]
    rfl

/-- The label is found if only one space parts it from the name. -/
theorem firstWord_afterSpace_rest :
    firstWord (afterSpace t.rest)
      = if t.between = 0 then (t.label.elim "" Word.text).toList else [] := by
  rw [rest]
  cases t.label with
  | none =>
    rw [labelText, String.empty_append, toList_spaces, afterSpace_replicate, firstWord_replicate]
    exact (ite_self _).symm
  | some a =>
    have hspace : " ".toList = [' '] := rfl
    simp only [labelText, String.toList_append, toList_spaces, hspace, List.append_assoc,
      List.cons_append, List.nil_append, afterSpace_space, firstWord_replicate_append,
      Word.firstWord_append, firstWord_replicate, List.append_nil, Option.elim]

theorem nonEmpty?_label : nonEmpty? (t.label.elim "" Word.text) = t.label.map Word.text := by
  cases t.label with
  | none => rfl
  | some a => exact a.nonEmpty?_text

/-- A space in front takes the place of the name, and one beyond the first the place of the
label. -/
theorem read_text : TableRef.read t.text none = t.found := by
  show (⟨String.ofList (firstWord t.text.toList),
    nonEmpty? (String.ofList (firstWord (afterSpace t.text.toList)))⟩ : TableRef) = _
  rw [toList_text, found]
  rcases t.before with _ | _ | n
  · simp only [List.replicate_zero, List.nil_append, Word.firstWord_append, Word.afterSpace_append,
      firstWord_rest, firstWord_afterSpace_rest, List.append_nil, String.ofList_toList]
    split
    · rw [String.ofList_toList, nonEmpty?_label]
    · rfl
  · simp only [List.replicate_succ, List.replicate_zero, List.cons_append, List.nil_append,
      firstWord_space, afterSpace_space, Word.firstWord_append, firstWord_rest, List.append_nil,
      String.ofList_toList, Word.nonEmpty?_text]
  · rfl

/-- A name and a label that are given apart are read as they stand. -/
theorem read_name : TableRef.read t.name.text (t.label.map Word.text) = t.meant := by
  rw [meant]
  cases t.label with
  | none =>
    have hname := t.name.firstWord_append []
    have hlabel := t.name.afterSpace_append []
    rw [List.append_nil] at hname hlabel
    simp only [TableRef.read, Option.map_none, Option.bind_none, hname, hlabel, afterSpace_nil,
      firstWord_nil, List.append_nil, String.ofList_toList]
    rfl
  | some a => simp only [TableRef.read, Option.map_some, Option.bind_some, a.nonEmpty?_text]

theorem name_found : t.found.name = if t.before = 0 then t.name.text else "" := by
  rw [found]
  rcases t.before with _ | _ | n <;> rfl

theorem found_eq_meant_iff : t.found = t.meant ↔ t.IsTight := by
  rw [found, meant, IsTight]
  have hname := t.name.ne_empty
  rcases t.before with _ | _ | n
  · cases t.label <;> simp
  · simp [hname.symm]
  · simp [hname.symm]

end TableText

/-! ## Placing a table -/

/-- The parameters of a table tell it from any other. -/
theorem TableRef.params_fragment_inj {r r' : TableRef} :
    r.fragment.params = r'.fragment.params ↔ r = r' := by
  obtain ⟨name, label⟩ := r
  obtain ⟨name', label'⟩ := r'
  cases label <;> cases label' <;> simp [TableRef.fragment]

namespace TableCall

variable (c : TableCall)

/-- The call with a table, and perhaps with a label beside it. -/
def step (table : String) (label : Option String) : Step :=
  match c with
  | .source => .source table label
  | .join kind criterion => .join kind table label criterion

def use : Fault.TableUse :=
  match c with
  | .source => .source
  | .join _ _ => .join

/-- The clause in which the call places a table. -/
def clause (r : TableRef) : Clause :=
  match c with
  | .source => (.source, r.fragment.enclose "FROM " "")
  | .join kind criterion =>
    (.join, r.fragment.enclose (kind.word ++ " JOIN ") (" ON " ++ criterion))

variable {c}

theorem params_clause (r : TableRef) : (c.clause r).2.params = r.fragment.params := by
  cases c <;> rfl

theorem clause_inj {r r' : TableRef} : c.clause r = c.clause r' ↔ r = r' := by
  constructor
  · intro h
    rw [← TableRef.params_fragment_inj, ← params_clause, h, params_clause]
  · exact fun h => h ▸ rfl

/-- A table text that is blank is refused; any other is read, and placed as it is read. -/
theorem clause?_step (guarded : Bool) (table : String) (label : Option String) :
    (c.step table label).clause? guarded =
      if isBlankText table then .error (.tableRequired c.use)
      else .ok (some (c.clause (TableRef.read table label))) := by
  cases c with
  | source | join =>
    rw [step, Step.clause?, requireTable]
    split <;> rfl

end TableCall

/-- A table text that is not blank places the table that is read of it, with an empty name exactly
if there is a space in front. So it adds the clause of its name and its label exactly if it has no
more spaces than have to be; where the name itself is blank and refused, the text is refused with it
exactly if its label is blank too. -/
theorem TableText.clause?_text (t : TableText) (c : TableCall) (guarded : Bool) :
    (isBlankText t.text = false →
      (c.step t.text none).clause? guarded = .ok (some (c.clause t.found)) ∧
      (t.found.name = if t.before = 0 then t.name.text else "")) ∧
    ((c.step t.text none).clause? guarded
        = (c.step t.name.text (t.label.map Word.text)).clause? guarded ↔
      if isBlankText t.name.text then t.IsBlank else t.IsTight) := by
  simp only [TableCall.clause?_step, read_text, read_name]
  refine ⟨fun h => ⟨by simp [h], t.name_found⟩, ?_⟩
  cases hname : isBlankText t.name.text with
  | true =>
    rw [if_pos rfl, if_pos rfl, ← isBlankText_text]
    cases isBlankText t.text <;> simp
  | false =>
    have htext : isBlankText t.text = false := by
      rw [← Bool.not_eq_true, isBlankText_text]
      exact fun h => absurd h.1 (by simp [hname])
    rw [htext, if_neg Bool.false_ne_true, if_neg Bool.false_ne_true, if_neg Bool.false_ne_true,
      Except.ok.injEq, Option.some.injEq, TableCall.clause_inj, found_eq_meant_iff]

/-- A space in front of the name, or a second one behind it, changes what is placed. -/
theorem clause?_source_of_spaces :
    (Step.source " users" none).clause? false
      = .ok (some (.source, ⟨"FROM ?? AS ??", [.text "", .text "users"]⟩)) ∧
    (Step.source "users" none).clause? false
      = .ok (some (.source, ⟨"FROM ??", [.text "users"]⟩)) ∧
    (Step.source "users  u" none).clause? false = (Step.source "users" none).clause? false ∧
    (Step.source "users  u" none).clause? false ≠ (Step.source "users" (some "u")).clause? false :=
  ⟨by decide, by decide, by decide, by decide⟩

/-- A table with its label, and spaces behind it. -/
def trailing : TableText where
  name := ⟨"users", by decide, by decide⟩
  label := some ⟨"u", by decide, by decide⟩
  before := 0
  between := 0
  behind := 2

theorem clause?_trailing :
    trailing.text = "users u  " ∧
    (Step.source "users u  " none).clause? false
      = .ok (some (.source, ⟨"FROM ?? AS ??", [.text "users", .text "u"]⟩)) ∧
    (Step.join .left "users u  " none "u.id = o.user_id").clause? false
      = (Step.join .left "users" (some "u") "u.id = o.user_id").clause? false := by
  have htext : isBlankText trailing.text = false := by decide
  have hname : ¬isBlankText trailing.name.text = true := by decide
  have htight : trailing.IsTight := ⟨rfl, .inr rfl⟩
  obtain ⟨hsource, -⟩ := trailing.clause?_text .source false
  obtain ⟨-, hjoin⟩ := trailing.clause?_text (.join .left "u.id = o.user_id") false
  refine ⟨by decide, (hsource htext).1, hjoin.2 ?_⟩
  rw [if_neg hname]
  exact htight

end Sqlwright
