import Sqlwright.Proofs.Parse
import Sqlwright.Proofs.Rendering

/-!
# How parts are read

What a column entry adds to a predicate is read as one test, whatever operator it is and however
many values it lists, as long as its column is not named like a word that the reader gives another
role. Parts joined in a node, and conditions joined in a group, are read part by part with the
connective between each two.
-/

namespace Sqlwright.Condition

/-! ## Tests of a column -/

/-- A text behind a column that ends the test it belongs to and holds no connective. -/
def EndsTest (tail : String) : Prop :=
  ∃ ts is, scan tail = some ts ∧ nest ts = some is ∧ is ≠ [] ∧ split false is = some ⟨is, []⟩

theorem EndsTest.of_tokens {tail : String} (ts : List Token) (hs : scan tail = some ts)
    (hflat : ∀ t ∈ ts, t ≠ .opening ∧ t ≠ .closing) (hne : ts ≠ [])
    (hsplit : split false (ts.map .token) = some ⟨ts.map .token, []⟩) : EndsTest tail :=
  ⟨ts, ts.map .token, hs, nest_of_forall hflat, by simpa using hne, hsplit⟩

/-- A word or sign with a placeholder behind it. -/
theorem EndsTest.of_value {tail : String} (t : Token) (ht : t.role = .plain)
    (hs : scan tail = some [t, .signs "?".toList])
    (hflat : t ≠ .opening ∧ t ≠ .closing) : EndsTest tail := by
  refine .of_tokens _ hs ?_ (by simp) (split_of_forall ?_)
  · simpa using hflat
  · intro i hi
    simp only [List.map_cons, List.map_nil, List.mem_cons, List.not_mem_nil, or_false] at hi
    rcases hi with rfl | rfl
    · exact ht
    · rfl

theorem endsTest_fixed {tail : String} {n : Nat} (h : (tail, n) ∈ fixedTails) :
    EndsTest tail := by
  simp only [fixedTails, List.mem_cons, Prod.mk.injEq, List.not_mem_nil, or_false] at h
  rcases h with ⟨rfl, -⟩ | ⟨rfl, -⟩ | ⟨rfl, -⟩ | ⟨rfl, -⟩ | ⟨rfl, -⟩ | ⟨rfl, -⟩ | ⟨rfl, -⟩ |
    ⟨rfl, -⟩ | ⟨rfl, -⟩ | ⟨rfl, -⟩ | ⟨rfl, -⟩ | ⟨rfl, -⟩ | ⟨rfl, -⟩
  · exact .of_value (.signs ['=']) rfl rfl (by simp)
  · exact .of_value (.signs ['!', '=']) rfl rfl (by simp)
  · exact .of_value (.signs ['<']) rfl rfl (by simp)
  · exact .of_value (.signs ['<', '=']) rfl rfl (by simp)
  · exact .of_value (.signs ['>']) rfl rfl (by simp)
  · exact .of_value (.signs ['>', '=']) rfl rfl (by simp)
  · exact .of_value (.word "LIKE".toList) rfl rfl (by simp)
  · exact .of_tokens [.word "NOT".toList, .word "LIKE".toList, .signs ['?']] rfl (by simp)
      (by simp) rfl
  · exact .of_value (.word "REGEXP".toList) rfl rfl (by simp)
  · exact .of_tokens [.word "BETWEEN".toList, .signs ['?'], .word "AND".toList, .signs ['?']] rfl
      (by simp) (by simp) rfl
  · exact .of_tokens [.word "NOT".toList, .word "BETWEEN".toList, .signs ['?'],
      .word "AND".toList, .signs ['?']] rfl (by simp) (by simp) rfl
  · exact .of_tokens [.word "IS".toList, .word "NULL".toList] rfl (by simp) (by simp) rfl
  · exact .of_tokens [.word "IS".toList, .word "NOT".toList, .word "NULL".toList] rfl (by simp)
      (by simp) rfl

/-- Placeholders with commas between them are runs of signs. -/
def marks (n : Nat) : List Token :=
  List.replicate n (.signs "?,".toList) ++ [.signs "?".toList]

theorem scan_marks (n : Nat) : scan (commaSeparated (n + 1) "?") = some (marks n) := by
  induction n with
  | zero => rfl
  | succ n ih =>
    have hmark : scan "?," = some [.signs "?,".toList] := rfl
    have hsplit : commaSeparated (n + 2) "?" = "?," ++ " " ++ commaSeparated (n + 1) "?" := by
      simp only [commaSeparated, List.replicate_succ, String.intercalate_cons_cons]
      rfl
    rw [hsplit, scan_append_blank hmark ih, marks, marks, List.replicate_succ]
    rfl

theorem nest_marks (n : Nat) : nest (marks n) = some ((marks n).map .token) := by
  refine nest_of_forall fun t ht => ?_
  simp only [marks, List.mem_append, List.mem_replicate, List.mem_singleton] at ht
  rcases ht with ⟨-, rfl⟩ | rfl <;> simp

theorem endsTest_list {keyword : String} (hk : keyword ∈ listWords) {n : Nat} (hn : n ≠ 0) :
    EndsTest (keyword ++ " (" ++ commaSeparated n "?" ++ ")") := by
  obtain ⟨n, rfl⟩ := Nat.exists_eq_succ_of_ne_zero hn
  obtain ⟨ts, is, hs, hi, hr⟩ : ∃ ts is, scan keyword = some ts ∧ nest ts = some is ∧
      ∀ i ∈ is, i.role = .plain := by
    simp only [listWords, List.mem_cons, List.not_mem_nil, or_false] at hk
    rcases hk with rfl | rfl <;> exact ⟨_, _, rfl, rfl, by decide⟩
  refine ⟨_, _, ?_, nest_append hi (nest_parenthesized (nest_marks n)), by simp, ?_⟩
  · have hscan := scan_append_blank hs (scan_parenthesized (scan_marks n))
    have htext : keyword ++ " (" ++ commaSeparated (n + 1) "?" ++ ")"
        = keyword ++ " " ++ ("(" ++ commaSeparated (n + 1) "?" ++ ")") := by
      simp only [String.append_assoc]
      rfl
    rw [Nat.succ_eq_add_one, htext]
    exact hscan
  · refine split_of_forall fun i hm => ?_
    rcases List.mem_append.1 hm with hm | hm
    · exact hr i hm
    · rw [List.mem_singleton.1 hm]
      rfl

def wording (s : String) : Wording := (scan s).getD []

/-- A column with such a text behind it is read as one test. -/
theorem phrase?_of_endsTest {column tail : String} (hc : column ≠ "")
    (hw : ∀ c ∈ column.toList, isWordPart c = true) (hp : wordRole column.toList = .plain)
    (ht : EndsTest tail) :
    phrase? (column ++ " " ++ tail) = some (.one (.test (wording (column ++ " " ++ tail)))) := by
  obtain ⟨ts, is, hs, hi, hne, hsplit⟩ := ht
  have hcolumn : nest [.word column.toList] = some [.token (.word column.toList)] := rfl
  have hscan := scan_append_blank (scan_word hc hw) hs
  have hnest := nest_append hcolumn hi
  -- the column joins the part that the rest of the text is
  have hpart : split false ([.token (.word column.toList)] ++ is)
      = some ⟨[.token (.word column.toList)] ++ is, []⟩ := by
    have hrole : (Item.token (.word column.toList)).role = .plain := hp
    rw [List.singleton_append, split, hrole]
    simp [hsplit, Phrase.push]
  have hread : readPart ([.token (.word column.toList)] ++ is)
      = some (.test (wording (column ++ " " ++ tail))) := by
    rw [wording, hscan, Option.getD_some, ← tokens_of_nest hnest]
    obtain ⟨i, is, rfl⟩ := List.exists_cons_of_ne_nil hne
    rfl
  refine phrase?_eq_some_iff.2 ⟨_, _, hscan, hnest, ?_⟩
  rw [phraseOf, hpart, Option.bind_some, readParts, hread]
  rfl

/-- A column that the reader takes for nothing but a name. -/
def isPlainColumn (name : String) : Bool :=
  decide (wordRole (Name.sanitize name).toList = .plain)

/-- Every fragment of a column entry is read as one test. -/
theorem phrase?_of_asks {name : String} {f : Fragment} (h : Asks (Name.sanitize name) f)
    (hne : Name.sanitize name ≠ "") (hp : isPlainColumn name = true) :
    phrase? f.sql = some (.one (.test (wording f.sql))) := by
  have hw : ∀ c ∈ (Name.sanitize name).toList, isWordPart c = true := by
    intro c hc
    simp [isWordPart, Name.isColumnChar_of_mem_sanitize hc]
  have hplain : wordRole (Name.sanitize name).toList = .plain := of_decide_eq_true hp
  cases h with
  | fixed tail known sql =>
    rw [sql]
    exact phrase?_of_endsTest hne hw hplain (endsTest_fixed known)
  | list keyword known values sql =>
    have hlen : f.params.length ≠ 0 := by simpa using values
    rw [sql]
    exact phrase?_of_endsTest hne hw hplain (endsTest_list known hlen)

/-! ## Parts and conditions side by side -/

/-- A phrase that a part shows among others, and whose formula it is read as when it is alone. -/
structure Part.Reads (p : Part) (q : Phrase (Formula Wording)) : Prop where
  crowded : phrase? (p.text true) = some q
  alone : read (p.text false) = some q.formula

theorem Part.Reads.of_phrase? {f : Fragment} {q : Phrase (Formula Wording)}
    (h : phrase? f.sql = some q) : Part.Reads ⟨f, false⟩ q :=
  ⟨h, by rw [read]; exact congrArg _ h⟩

/-- Among others, a caller's predicate is one part. -/
theorem Part.Reads.of_read {f : Fragment} {φ : Formula Wording} (h : read f.sql = some φ) :
    Part.Reads ⟨f, true⟩ (.one φ) :=
  ⟨phrase?_parenthesized h, h⟩

/-- Joined parts are read side by side. -/
theorem read_combine {c : Connective} {ps : List Part} {q : Phrase (Formula Wording)}
    {qs : List (Phrase (Formula Wording))} (h : List.Forall₂ Part.Reads (spoken ps) (q :: qs)) :
    read (combine c ps).sql = some (q.joinAll c qs).formula := by
  rw [combine]
  cases hs : spoken ps with
  | nil => rw [hs] at h; cases h
  | cons p rest =>
    rw [hs] at h
    obtain ⟨hp, hrest⟩ := List.forall₂_cons.1 h
    cases hrest with
    | nil =>
      -- a part without company is not put in parentheses
      show read (c.separator.intercalate [p.text false]) = _
      rw [String.intercalate_singleton, hp.alone]
      rfl
    | @cons p' q' rest qs hp' hrest =>
      have hcrowded : decide (1 < (p :: p' :: rest).length) = true := by simp
      have htexts : List.Forall₂ (fun t q => phrase? t = some q)
          ((p' :: rest).map (Part.text true)) (q' :: qs) :=
        List.forall₂_map_left_iff.2
          ((List.Forall₂.cons hp' hrest).imp fun _ _ hr => hr.crowded)
      rw [hcrowded, List.map_cons, read, phrase?_intercalate hp.crowded htexts]
      rfl

/-- Conditions of a group are read one by one. -/
theorem phrase?_combineChildren {c : Connective} {fs : List Fragment} {φ : Formula Wording}
    {φs : List (Formula Wording)}
    (h : List.Forall₂ (fun f φ => read f.sql = some φ) (fs.filter fun f => !f.isBlank)
      (φ :: φs)) :
    phrase? (combineChildren c fs).sql
      = some ((Phrase.one φ).joinAll c (φs.map .one)) := by
  rw [combineChildren]
  cases hs : fs.filter fun f => !f.isBlank with
  | nil => rw [hs] at h; cases h
  | cons f rest =>
    rw [hs] at h
    obtain ⟨hf, hrest⟩ := List.forall₂_cons.1 h
    refine phrase?_intercalate (phrase?_parenthesized hf) ?_
    rw [List.forall₂_map_left_iff, List.forall₂_map_right_iff]
    exact hrest.imp fun _ _ hr => phrase?_parenthesized hr

end Sqlwright.Condition
