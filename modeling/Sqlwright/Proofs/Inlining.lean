import Mathlib.Data.List.Forall2
import Sqlwright.Proofs.Confinement
import Sqlwright.Proofs.Lexeme

/-!
# Statements with their parameters written in

Writing the parameters into a statement changes none of its other lexemes. A value becomes one
literal that reads back as the value, and a name becomes names between backticks that read back as
its dotted parts, whatever characters they hold: the quotation that is opened for a parameter is
closed at its end and nowhere before. What stands beside a placeholder is a delimiter, so nothing
runs together with it (`lex_inlined`).
-/

namespace Sqlwright

namespace Lexeme

/-! ## Borders -/

/-- A text with a delimiter in front, or no text. -/
def IsApart (rest : List Char) : Prop := ∀ c ∈ rest.head?, isDelimiter c = true

theorem isApart_nil : IsApart [] := nofun

theorem ne_of_isDelimiter {c d : Char} (hc : isDelimiter c = true) (hd : isDelimiter d = false) :
    c ≠ d := by
  rintro rfl
  rw [hc] at hd
  cases hd

/-- A delimiter completes the chunk in front of it. -/
theorem exists_readChar {d : Char} (hd : isDelimiter d = true) :
    ∃ between, ∀ cs rest, readChar cs d rest = some (ofChunk cs ++ between, .chunk []) := by
  have hcases : d = ' ' ∨ d = ',' ∨ d = '(' ∨ d = ')' := by simpa [isDelimiter] using hd
  rcases hcases with rfl | rfl | rfl | rfl <;> exact ⟨_, fun _ _ => rfl⟩

theorem lexFrom_chunk {rest : List Char} (h : IsApart rest) (cs : List Char) :
    lexFrom (.chunk cs) rest = (lexFrom (.chunk []) rest).map (ofChunk cs ++ ·) := by
  cases rest with
  | nil => simp [lexFrom, Pending.finish]
  | cons d rest =>
    obtain ⟨between, hread⟩ := exists_readChar (h d rfl)
    rw [lexFrom, lexFrom, Pending.read, Pending.read, hread, hread]
    simp [Option.map_map, Function.comp_def]

/-- What a delimiter completes in front of it is a lexeme more. -/
theorem lexFrom_of_read {p : Pending} {l : Lexeme} (hf : p.finish = some [l]) {rest : List Char}
    (hr : ∀ c cs, rest = c :: cs →
      p.read c cs = (readChar [] c cs).map fun out => (l :: out.1, out.2)) :
    lexFrom p rest = (lexFrom (.chunk []) rest).map (l :: ·) := by
  cases rest with
  | nil =>
    rw [lexFrom, hf]
    rfl
  | cons c cs =>
    rw [lexFrom, lexFrom, hr c cs rfl, Pending.read]
    cases readChar [] c cs with
    | none => rfl
    | some out => simp [Option.map_map, Function.comp_def]

theorem lexFrom_closing {rest : List Char} (h : IsApart rest) {quote : Char}
    (hq : isDelimiter quote = false) (content : List Char) :
    lexFrom (.closing quote content) rest
      = (lexFrom (.chunk []) rest).map (ofQuoted quote content :: ·) := by
  refine lexFrom_of_read rfl fun c cs hrest => ?_
  rw [hrest] at h
  rw [Pending.read, if_neg (ne_of_isDelimiter (h c rfl) hq)]

theorem lexFrom_marks {rest : List Char} (h : IsApart rest) (count : Nat) :
    lexFrom (.marks count) rest = (lexFrom (.chunk []) rest).map (.marks count :: ·) := by
  refine lexFrom_of_read rfl fun c cs hrest => ?_
  rw [hrest] at h
  rw [Pending.read, if_neg (ne_mark_of_isDelimiter (h c rfl))]

/-- A character that completes nothing. -/
theorem lexFrom_cons {p q : Pending} {c : Char} {cs : List Char}
    (h : p.read c cs = some ([], q)) : lexFrom p (c :: cs) = lexFrom q cs := by
  rw [lexFrom, h]
  simp

/-! ## Texts -/

/-- An escaped character reads back. -/
theorem lexFrom_escapeChar (content : List Char) (c : Char) (rest : List Char) :
    lexFrom (.quoted '\'' content) (Literal.escapeChar c ++ rest)
      = lexFrom (.quoted '\'' (content ++ [c])) rest := by
  unfold Literal.escapeChar
  split
  case h_10 hquote hslash =>
    refine lexFrom_cons ?_
    rw [Pending.read, if_neg hquote, if_neg fun h => hslash h.1]
  all_goals
    rw [List.cons_append, List.singleton_append, lexFrom_cons rfl, lexFrom_cons rfl]
    rfl

theorem lexFrom_escaped (content cs rest : List Char) :
    lexFrom (.quoted '\'' content) (cs.flatMap Literal.escapeChar ++ rest)
      = lexFrom (.quoted '\'' (content ++ cs)) rest := by
  induction cs generalizing content with
  | nil => simp
  | cons c cs ih =>
    rw [List.flatMap_cons, List.append_assoc, lexFrom_escapeChar, ih, List.append_assoc,
      List.singleton_append]

/-- A quoted text is one lexeme, whatever it holds. -/
theorem lexFrom_quote (s : String) {rest : List Char} (h : IsApart rest) :
    lexFrom (.chunk []) ((Literal.quote s).toList ++ rest)
      = (lexFrom (.chunk []) rest).map (.text s :: ·) := by
  have htext : (Literal.quote s).toList ++ rest
      = '\'' :: (s.toList.flatMap Literal.escapeChar ++ '\'' :: rest) := by
    simp [Literal.quote]
  rw [htext, lexFrom_cons rfl, lexFrom_escaped, lexFrom_cons (q := .closing '\'' s.toList) rfl,
    lexFrom_closing h (by decide)]
  simp [ofQuoted]

/-! ## Names -/

/-- Names with points between them. -/
def path (parts : List (List Char)) : List Lexeme :=
  (parts.map fun part => .name (String.ofList part)).intersperse (.symbol ".")

theorem path_cons (part : List Char) {parts : List (List Char)} (h : parts ≠ []) :
    path (part :: parts) = .name (String.ofList part) :: .symbol "." :: path parts := by
  cases parts with
  | nil => exact absurd rfl h
  | cons other parts => rfl

theorem modifyHead_nil_append {α : Type} (parts : List (List α)) :
    parts.modifyHead (([] : List α) ++ ·) = parts :=
  congrFun List.modifyHead_id parts

/-- The point between two quoted parts of a name. -/
theorem lexFrom_point (content rest : List Char) :
    lexFrom (.quoted '\x60' content) ('\x60' :: '.' :: '\x60' :: rest)
      = (lexFrom (.quoted '\x60' []) rest).map
          ([.name (String.ofList content), .symbol "."] ++ ·) := by
  rw [lexFrom_cons (q := .closing '\x60' content) rfl, lexFrom]
  have hpoint : (Pending.closing '\x60' content).read '.' ('\x60' :: rest)
      = some ([.name (String.ofList content)], .chunk ['.']) := rfl
  have hquote : (Pending.chunk ['.']).read '\x60' rest
      = some ([.symbol "."], .quoted '\x60' []) := rfl
  rw [hpoint, Option.bind_some, lexFrom, hquote, Option.bind_some, Option.map_map]
  rfl

/-- The dotted parts of a name read back. -/
theorem lexFrom_parts (content cs : List Char) {rest : List Char} (h : IsApart rest) :
    lexFrom (.quoted '\x60' content) (cs.flatMap Name.quoteChar ++ '\x60' :: rest)
      = (lexFrom (.chunk []) rest).map
          (path ((cs.splitOn '.').modifyHead (content ++ ·)) ++ ·) := by
  induction cs generalizing content with
  | nil =>
    rw [List.flatMap_nil, List.nil_append, lexFrom_cons (q := .closing '\x60' content) rfl,
      lexFrom_closing h (by decide)]
    simp [path, ofQuoted]
  | cons c cs ih =>
    have hsplit := List.splitOn_cons_eq_if_modifyHead (a := '.') c cs
    rw [List.flatMap_cons, List.append_assoc, Name.quoteChar]
    by_cases hpoint : c = '.'
    · subst hpoint
      rw [if_neg (by decide), if_pos rfl]
      simp only [List.cons_append, List.nil_append]
      rw [lexFrom_point, ih, Option.map_map]
      rw [hsplit, if_pos (beq_self_eq_true _), List.modifyHead_cons, List.append_nil,
        path_cons content (List.splitOn_ne_nil _ _), modifyHead_nil_append]
      rfl
    · have hrest : List.modifyHead (content ++ ·) ((c :: cs).splitOn '.')
          = List.modifyHead ((content ++ [c]) ++ ·) (cs.splitOn '.') := by
        rw [hsplit, if_neg (by simpa using hpoint), List.modifyHead_modifyHead]
        simp [Function.comp_def]
      rw [hrest, if_neg hpoint]
      split
      · rename_i hquote
        subst hquote
        simp only [List.cons_append, List.nil_append]
        rw [lexFrom_cons (q := .closing '\x60' content) rfl,
          lexFrom_cons (q := .quoted '\x60' (content ++ ['\x60'])) rfl, ih]
      · rename_i hquote
        rw [List.singleton_append, lexFrom_cons (q := .quoted '\x60' (content ++ [c])), ih]
        rw [Pending.read, if_neg hquote, if_neg (by simp)]

/-- A quoted name is its dotted parts with points between them, whatever they hold. -/
theorem lexFrom_quoteName (name : String) {rest : List Char} (h : IsApart rest) :
    lexFrom (.chunk []) ((Name.quote name).toList ++ rest)
      = (lexFrom (.chunk []) rest).map (path (name.toList.splitOn '.') ++ ·) := by
  have htext : (Name.quote name).toList ++ rest
      = '\x60' :: (name.toList.flatMap Name.quoteChar ++ '\x60' :: rest) := by
    simp [Name.quote]
  rw [htext, lexFrom_cons (q := .quoted '\x60' []) rfl, lexFrom_parts [] _ h,
    modifyHead_nil_append]

/-! ## Words and numbers -/

theorem opensComment_of_not_mem {c : Char} (h : c ∉ ['#', '/', '-']) (rest : List Char) :
    opensComment c rest = false := by
  simp only [List.mem_cons, List.not_mem_nil, or_false, not_or] at h
  simp [opensComment, h]

theorem readChar_of_isNameChar {c : Char} (h : isNameChar c = true) (cs rest : List Char) :
    readChar cs c rest = some ([], .chunk (cs ++ [c])) := by
  have hne : ∀ d, isNameChar d = false → c ≠ d := by
    rintro d hd rfl
    rw [h] at hd
    cases hd
  have hcomment : opensComment c rest = false := by
    refine opensComment_of_not_mem (fun hm => ?_) rest
    have hall : ∀ d ∈ ['#', '/', '-'], isNameChar d = false :=
      List.all_iff_forall_prop.1 (by decide)
    exact hne c (hall c hm) rfl
  have hseparator : separator? c = none := by
    have hnone : ∀ d ∈ [',', '(', ')', ' ', '\t', '\n', '\x0b', '\x0c', '\r'], c ≠ d := by
      intro d hd
      have hall : ∀ d ∈ [',', '(', ')', ' ', '\t', '\n', '\x0b', '\x0c', '\r'],
          isNameChar d = false :=
        List.all_iff_forall_prop.1 (by decide)
      exact hne d (hall d hd)
    rw [separator?, if_neg fun hm => hnone c (List.mem_append_left _ hm) rfl,
      if_neg fun hm => hnone c (List.mem_append_right [',', '(', ')'] hm) rfl]
  have hmark := hne '?' (by decide)
  have hquote := hne '\'' (by decide)
  have hdouble := hne '"' (by decide)
  have hback := hne '\x60' (by decide)
  simp [readChar, hcomment, hseparator, hmark, hquote, hdouble, hback]

/-- Characters of words gather in the chunk. -/
theorem lexFrom_word (cs : List Char) {w : List Char} (h : ∀ c ∈ w, isNameChar c = true)
    (rest : List Char) : lexFrom (.chunk cs) (w ++ rest) = lexFrom (.chunk (cs ++ w)) rest := by
  induction w generalizing cs with
  | nil => simp
  | cons c w ih =>
    obtain ⟨hc, hw⟩ := List.forall_mem_cons.1 h
    have hread : (Pending.chunk cs).read c (w ++ rest) = some ([], .chunk (cs ++ [c])) :=
      readChar_of_isNameChar hc cs _
    rw [List.cons_append, lexFrom_cons hread, ih _ hw, List.append_assoc, List.singleton_append]

theorem lexFrom_wordApart {w : List Char} (hw : ∀ c ∈ w, isNameChar c = true)
    {rest : List Char} (h : IsApart rest) :
    lexFrom (.chunk []) (w ++ rest) = (lexFrom (.chunk []) rest).map (ofChunk w ++ ·) := by
  rw [lexFrom_word [] hw, List.nil_append, lexFrom_chunk h]

/-- The words that stand for values. -/
theorem lexFrom_keyword {w : String} (hw : w ∈ ["NULL", "true", "false"]) {rest : List Char}
    (h : IsApart rest) :
    lexFrom (.chunk []) (w.toList ++ rest)
      = (lexFrom (.chunk []) rest).map ([.word w] ++ ·) := by
  have hwords : ∀ w ∈ ["NULL", "true", "false"],
      w.toList.all isNameChar = true ∧ ofChunk w.toList = [.word w] := by decide
  obtain ⟨hchars, hchunk⟩ := hwords w hw
  rw [lexFrom_wordApart (List.all_eq_true.1 hchars) h, hchunk]

theorem isNameChar_of_isDigit {c : Char} (h : c.isDigit = true) : isNameChar c = true := by
  have hdigit : (decide ('0' ≤ c) && decide (c ≤ '9')) = true := h
  rw [isNameChar, Name.isWordChar, hdigit]
  simp

theorem isDigit_of_mem_toDigits {n : Nat} : ∀ c ∈ Nat.toDigits 10 n, c.isDigit = true :=
  fun _ hc => Nat.isDigit_of_mem_toDigits (by decide) (by decide) hc

/-- The digits of a number read back as the number. -/
theorem lexFrom_natural (n : Nat) {rest : List Char} (h : IsApart rest) :
    lexFrom (.chunk []) (Nat.toDigits 10 n ++ rest)
      = (lexFrom (.chunk []) rest).map ([.integer n] ++ ·) := by
  rw [lexFrom_wordApart (fun c hc => isNameChar_of_isDigit (isDigit_of_mem_toDigits c hc)) h,
    ofChunk_digits isDigit_of_mem_toDigits Nat.toDigits_ne_nil, Nat.ofDigitChars_ten_toDigits]

theorem lexFrom_negative (n : Nat) {rest : List Char} (h : IsApart rest) :
    lexFrom (.chunk []) ('-' :: (Nat.toDigits 10 n ++ rest))
      = (lexFrom (.chunk []) rest).map ([.symbol "-", .integer n] ++ ·) := by
  obtain ⟨d, ds, hdigits⟩ := List.exists_cons_of_ne_nil (Nat.toDigits_ne_nil (n := n) (b := 10))
  have hd : d.isDigit = true := isDigit_of_mem_toDigits d (by rw [hdigits]; simp)
  have hread : (Pending.chunk []).read '-' (Nat.toDigits 10 n ++ rest)
      = some ([], .chunk ['-']) := by
    have hdash : d ≠ '-' := by
      rintro rfl
      exact absurd hd (by decide)
    have hcomment : opensComment '-' (d :: (ds ++ rest)) = false := by
      simp [opensComment, hdash]
    rw [hdigits, List.cons_append, Pending.read, readChar, hcomment]
    rfl
  rw [lexFrom_cons hread,
    lexFrom_word _ fun c hc => isNameChar_of_isDigit (isDigit_of_mem_toDigits c hc),
    lexFrom_chunk h, List.singleton_append,
    ofChunk_signed isDigit_of_mem_toDigits Nat.toDigits_ne_nil, Nat.ofDigitChars_ten_toDigits]

/-! ## Octets -/

theorem hexValue?_digitChar {n : Nat} (h : n < 16) : hexValue? (Nat.digitChar n) = some n := by
  have hall : ∀ n < 16, hexValue? (Nat.digitChar n) = some n := by decide
  exact hall n h

theorem octetsOf?_octetDigits (octets : List UInt8) :
    octetsOf? (octets.flatMap Literal.octetDigits) = some octets := by
  induction octets with
  | nil => rfl
  | cons b octets ih =>
    have hb : b.toNat < 256 := b.toNat_lt
    have hvalue : 16 * (b.toNat / 16) + b.toNat % 16 = b.toNat := Nat.div_add_mod _ _
    rw [List.flatMap_cons, Literal.octetDigits, List.cons_append, List.singleton_append, octetsOf?,
      hexValue?_digitChar (by omega), hexValue?_digitChar (by omega), ih, Option.bind_some,
      Option.bind_some, Option.map_some, hvalue, UInt8.ofNat_toNat]

theorem ne_quote_of_mem_octetDigits {b : UInt8} : ∀ c ∈ Literal.octetDigits b, c ≠ '\'' := by
  have hdigit : ∀ n < 16, Nat.digitChar n ≠ '\'' := by decide
  have hb : b.toNat < 256 := b.toNat_lt
  rw [Literal.octetDigits]
  exact List.forall_mem_cons.2
    ⟨hdigit _ (by omega), List.forall_mem_singleton.2 (hdigit _ (by omega))⟩

theorem lexFrom_digits (cs : List Char) {ds : List Char} (h : ∀ c ∈ ds, c ≠ '\'')
    (rest : List Char) :
    lexFrom (.digits cs) (ds ++ rest) = lexFrom (.digits (cs ++ ds)) rest := by
  induction ds generalizing cs with
  | nil => simp
  | cons d ds ih =>
    obtain ⟨hd, hds⟩ := List.forall_mem_cons.1 h
    have hread : (Pending.digits cs).read d (ds ++ rest) = some ([], .digits (cs ++ [d])) := by
      rw [Pending.read, if_neg hd]
    rw [List.cons_append, lexFrom_cons hread, ih _ hds, List.append_assoc, List.singleton_append]

/-- Octets between quotes are one lexeme. -/
theorem lexFrom_octets (octets : List UInt8) (rest : List Char) :
    lexFrom (.chunk []) (("X'" ++ Literal.hexText octets ++ "'").toList ++ rest)
      = (lexFrom (.chunk []) rest).map (.octets octets :: ·) := by
  have htext : ("X'" ++ Literal.hexText octets ++ "'").toList ++ rest
      = 'X' :: '\'' :: (octets.flatMap Literal.octetDigits ++ '\'' :: rest) := by
    simp [Literal.hexText]
  have hdigits : ∀ c ∈ octets.flatMap Literal.octetDigits, c ≠ '\'' := by
    intro c hc
    obtain ⟨b, -, hb⟩ := List.mem_flatMap.1 hc
    exact ne_quote_of_mem_octetDigits c hb
  rw [htext, lexFrom_cons (q := .chunk ['X']) rfl, lexFrom_cons (q := .digits []) rfl,
    lexFrom_digits [] hdigits, List.nil_append, lexFrom, Pending.read, if_pos rfl,
    octetsOf?_octetDigits]
  simp

/-! ## Values -/

/-- The lexemes of a value; a float promises none. -/
def ofValue : Value → List Lexeme
  | .null => [.word "NULL"]
  | .bool b => [.word (if b then "true" else "false")]
  | .int n =>
    if n.toInt < 0 then [.symbol "-", .integer n.toInt.natAbs] else [.integer n.toInt.natAbs]
  | .uint n => [.integer n.toNat]
  | .float _ => []
  | .text s => [.text s]
  | .bytes bs => [.octets bs]
  | .dateTime t => [.text t.text]
  | .document d => [.text d.compact]

/-- A literal reads back as its value. -/
theorem lexFrom_literal {v : Value} (hv : ∀ x, v ≠ .float x) {rest : List Char}
    (h : IsApart rest) :
    lexFrom (.chunk []) (v.literal.toList ++ rest)
      = (lexFrom (.chunk []) rest).map (ofValue v ++ ·) := by
  cases v with
  | null => exact lexFrom_keyword (w := "NULL") (by decide) h
  | bool b =>
    cases b with
    | false => exact lexFrom_keyword (w := "false") (by decide) h
    | true => exact lexFrom_keyword (w := "true") (by decide) h
  | int n =>
    rw [Value.literal, ofValue, Int.toString_eq_repr]
    cases n.toInt with
    | ofNat m =>
      have htext : (Int.ofNat m).repr.toList = Nat.toDigits 10 m := Nat.toList_repr
      have hsign : ¬Int.ofNat m < 0 := Int.not_lt.2 (Int.natCast_nonneg m)
      rw [htext, if_neg hsign]
      exact lexFrom_natural m h
    | negSucc m =>
      have htext : (Int.negSucc m).repr.toList = '-' :: Nat.toDigits 10 (m + 1) := by
        rw [Int.repr, String.toList_append, Nat.toList_repr]
        rfl
      rw [htext, if_pos (Int.negSucc_lt_zero m)]
      exact lexFrom_negative (m + 1) h
  | uint n =>
    have htext : (toString n.toNat).toList = Nat.toDigits 10 n.toNat := Nat.toList_repr
    rw [Value.literal, htext]
    exact lexFrom_natural n.toNat h
  | float x => exact absurd rfl (hv x)
  | text s => exact lexFrom_quote s h
  | bytes bs => exact lexFrom_octets bs rest
  | dateTime t => exact lexFrom_quote t.text h
  | document d => exact lexFrom_quote d.compact h

/-- What stands for a value in the place of a run of marks. -/
def shown (run : Nat) (v : Value) : List Lexeme :=
  if run = 2 then path ((v.text?.getD "").toList.splitOn '.') else ofValue v

/-- The lexemes of a statement with values in the places of its marks. -/
def substitute : List Lexeme → List Value → List Lexeme
  | .marks run :: ls, v :: vs => shown run v ++ substitute ls vs
  | l :: ls, vs => l :: substitute ls vs
  | [], _ => []

theorem substitute_append {ls : List Lexeme} (h : ∀ l ∈ ls, ∀ n, l ≠ .marks n)
    (ms : List Lexeme) (vs : List Value) : substitute (ls ++ ms) vs = ls ++ substitute ms vs := by
  induction ls with
  | nil => rfl
  | cons l ls ih =>
    obtain ⟨hl, hls⟩ := List.forall_mem_cons.1 h
    cases l with
    | marks n => exact absurd rfl (hl n)
    | _ => rw [List.cons_append, substitute, ih hls, List.cons_append]; simp

end Lexeme

/-- Whether a value can stand in the place of a run of marks: a text for a name, anything but a
float for a value. -/
def Value.Suits (run : Nat) (v : Value) : Prop :=
  run = 1 ∧ (∀ x, v ≠ .float x) ∨ run = 2 ∧ ∃ s, v = .text s

namespace Placeholder

/-- The lengths of the runs of marks in a text that continues such a run. -/
def runsFrom (run : Nat) : List Char → List Nat
  | [] => if run = 0 then [] else [run]
  | c :: cs =>
    if c = '?' then runsFrom (run + 1) cs
    else (if run = 0 then [] else [run]) ++ runsFrom 0 cs

/-- The lengths of the runs of marks in a text. -/
def runs (sql : String) : List Nat := runsFrom 0 sql.toList

end Placeholder

open Placeholder Lexeme

/-! ## Placeholders -/

/-- What is written in for a value reads back as the value. -/
theorem lexFrom_close {run : Nat} {v : Value} (hv : v.Suits run) (vs : List Value)
    {rest : List Char} (h : IsApart rest) :
    (close run (v :: vs)).2 = vs ∧ lexFrom (.chunk []) ((close run (v :: vs)).1 ++ rest)
      = (lexFrom (.chunk []) rest).map (shown run v ++ ·) := by
  rcases hv with ⟨rfl, hv⟩ | ⟨rfl, s, rfl⟩
  · have hclose : close 1 (v :: vs) = (v.literal.toList, vs) := rfl
    rw [hclose, shown, if_neg (by decide)]
    refine ⟨rfl, ?_⟩
    dsimp only
    exact lexFrom_literal hv h
  · have hname : nameText (.text s) = Name.quote s := rfl
    have hclose : close 2 (.text s :: vs) = ((nameText (.text s)).toList, vs) := rfl
    have hshown : shown 2 (.text s) = path (s.toList.splitOn '.') := by
      rw [shown, if_pos rfl, Value.text?, Option.getD_some]
    rw [hclose, hname, hshown]
    refine ⟨rfl, ?_⟩
    dsimp only
    exact lexFrom_quoteName s h

/-- Behind a character that is no delimiter a text goes on as it was. -/
theorem head?_fillFrom {cs : List Char} (h : standAloneFrom false 0 cs = true)
    (params : List Value) : (fillFrom 0 cs params).head? = cs.head? := by
  cases cs with
  | nil => simp [fillFrom]
  | cons c cs =>
    have hc : c ≠ '?' := by
      rintro rfl
      rw [standAloneFrom, if_pos rfl, standAloneFrom_false_succ] at h
      cases h
    rw [fillFrom_zero_cons hc]
    rfl

/-- No comment opens because of a parameter. -/
theorem opensComment_fillFrom {c : Char} {cs : List Char}
    (h : standAloneFrom (isDelimiter c) 0 cs = true) (params : List Value) :
    opensComment c (fillFrom 0 cs params) = opensComment c cs := by
  cases hc : isDelimiter c with
  | true =>
    have hnone : c ∉ ['#', '/', '-'] := by
      have hall : ∀ d ∈ ['#', '/', '-'], isDelimiter d = false :=
        List.all_iff_forall_prop.1 (by decide)
      exact fun hm => ne_of_isDelimiter hc (hall c hm) rfl
    rw [opensComment_of_not_mem hnone, opensComment_of_not_mem hnone]
  | false =>
    rw [hc] at h
    have hhead := head?_fillFrom h params
    rw [opensComment, opensComment, hhead]
    by_cases hdash : cs.head? = some '-'
    · -- the character behind two dashes matters as well
      obtain ⟨rest, rfl⟩ := List.head?_eq_some_iff.1 hdash
      have hrest : standAloneFrom false 0 rest = true := by
        rw [standAloneFrom, if_neg (by decide), Bool.and_eq_true] at h
        exact h.2
      rw [fillFrom_zero_cons (by decide)]
      simp [head?_fillFrom hrest params]
    · have hnone : (cs.head? == some '-') = false := by simpa using hdash
      simp [hnone]

/-- A character outside of quotations that opens nothing. -/
theorem exists_readChar_of_ne {c : Char} (hq : c ∉ ['\'', '"', '\x60', '?']) (chunk : List Char) :
    ∃ out next, (∀ l ∈ out, ∀ n, l ≠ .marks n) ∧ (isDelimiter c = true → next = []) ∧
      ∀ rest, opensComment c rest = false → readChar chunk c rest = some (out, .chunk next) := by
  simp only [List.mem_cons, List.not_mem_nil, or_false, not_or] at hq
  obtain ⟨hquote, hdouble, hback, hmark⟩ := hq
  cases hs : separator? c with
  | none =>
    refine ⟨[], chunk ++ [c], by simp, fun hc => ?_, fun rest hcomment => ?_⟩
    · have hcases : c = ' ' ∨ c = ',' ∨ c = '(' ∨ c = ')' := by simpa [isDelimiter] using hc
      rcases hcases with rfl | rfl | rfl | rfl <;> exact absurd hs (by decide)
    · simp [readChar, hcomment, hs, hmark, hquote, hdouble, hback]
  | some lexemes =>
    refine ⟨ofChunk chunk ++ lexemes, [], fun l hl n => ?_, fun _ => rfl, fun rest hcomment => ?_⟩
    · rcases List.mem_append.1 hl with hl | hl
      · exact ne_marks_of_mem_chunkFrom hl n
      · rw [separator?] at hs
        split at hs
        · cases hs
          rw [List.mem_singleton.1 hl]
          simp
        · split at hs <;> cases hs
          cases hl
    · simp [readChar, hcomment, hs, hmark, hquote, hdouble, hback]

/-! ## Templates -/

/-- A text whose quotations and comments nobody opens. -/
structure IsInert (cs : List Char) : Prop where
  unquoted : ∀ c ∈ cs, c ∉ ['\'', '"', '\x60', '\\']
  uncommented : ∀ c rest, c :: rest <:+ cs → opensComment c rest = false

theorem IsInert.tail {c : Char} {cs : List Char} (h : IsInert (c :: cs)) : IsInert cs where
  unquoted d hd := h.unquoted d (List.mem_cons_of_mem c hd)
  uncommented d rest hs := h.uncommented d rest (hs.trans (List.suffix_cons c cs))

/-- What is pending in a template: a chunk, or a run of marks. -/
def pendingOf (run : Nat) (chunk : List Char) : Pending :=
  if run = 0 then .chunk chunk else .marks run

/-- A character outside of a run has the same lexemes with the values written in behind it. -/
theorem exists_lexFrom_cons {c : Char} (hc : c ≠ '?') {cs : List Char} (hcs : IsInert (c :: cs))
    (hparted : standAloneFrom (isDelimiter c) 0 cs = true) {vs : List Value}
    (h : ∀ next, (isDelimiter c = true → next = []) →
      ∃ ls, lexFrom (.chunk next) cs = some ls ∧
        lexFrom (.chunk next) (fillFrom 0 cs vs) = some (substitute ls vs))
    (chunk : List Char) :
    ∃ ls, lexFrom (.chunk chunk) (c :: cs) = some ls ∧
      lexFrom (.chunk chunk) (c :: fillFrom 0 cs vs) = some (substitute ls vs) := by
  have hcomment := hcs.uncommented c cs (List.suffix_refl _)
  have hsame := (opensComment_fillFrom hparted vs).trans hcomment
  have hquote : c ∉ ['\'', '"', '\x60', '?'] := by
    have hunquoted := hcs.unquoted c (by simp)
    simp_all
  obtain ⟨out, next, hout, hempty, hread⟩ := exists_readChar_of_ne hquote chunk
  obtain ⟨ls, hls, hfill⟩ := h next hempty
  refine ⟨out ++ ls, ?_, ?_⟩
  · rw [lexFrom, Pending.read, hread _ hcomment, Option.bind_some, hls, Option.map_some]
  · rw [lexFrom, Pending.read, hread _ hsame, Option.bind_some, hfill, Option.map_some,
      substitute_append hout]

/-- A run of marks has the lexemes of its value in its place. -/
theorem exists_lexFrom_marks {run : Nat} {v : Value} (hv : v.Suits run) {cs filled : List Char}
    (hcs : IsApart cs) (hfilled : IsApart filled) (vs : List Value)
    (h : ∃ ls, lexFrom (.chunk []) cs = some ls ∧
      lexFrom (.chunk []) filled = some (substitute ls vs)) :
    ∃ ls, lexFrom (.marks run) cs = some ls ∧
      lexFrom (.chunk []) ((close run (v :: vs)).1 ++ filled) = some (substitute ls (v :: vs)) := by
  obtain ⟨ls, hls, hfill⟩ := h
  obtain ⟨-, hclose⟩ := lexFrom_close hv vs hfilled
  refine ⟨.marks run :: ls, ?_, ?_⟩
  · rw [lexFrom_marks hcs, hls, Option.map_some]
  · rw [hclose, hfill, Option.map_some, substitute]

/-- Filling a template fills its lexemes. The induction is along the text; a chunk is pending only
where no run of marks is, and there is none behind a delimiter. -/
theorem exists_lexFrom_fillFrom {cs : List Char} (hcs : IsInert cs) {apart : Bool} {run : Nat}
    {chunk : List Char} {params : List Value} (hparted : standAloneFrom apart run cs = true)
    (hchunk : apart = true → chunk = [])
    (hparams : List.Forall₂ (fun run v => Value.Suits run v) (runsFrom run cs) params) :
    ∃ ls, lexFrom (pendingOf run chunk) cs = some ls ∧
      lexFrom (.chunk chunk) (fillFrom run cs params) = some (substitute ls params) := by
  induction cs generalizing apart run chunk params with
  | nil =>
    rw [fillFrom]
    cases run with
    | zero =>
      cases hparams
      have hchars : ∀ l ∈ ofChunk chunk, ∀ n, l ≠ .marks n := fun l hl n =>
        ne_marks_of_mem_chunkFrom hl n
      have hnone := substitute_append hchars [] []
      rw [List.append_nil, substitute, List.append_nil] at hnone
      exact ⟨ofChunk chunk, rfl, by rw [hnone]; rfl⟩
    | succ run =>
      obtain rfl := hchunk (apart_of_standAloneFrom hparted)
      rw [runsFrom, if_neg (Nat.succ_ne_zero run)] at hparams
      obtain ⟨v, vs, hv, hvs, rfl⟩ := List.forall₂_cons_left_iff.1 hparams
      cases hvs
      have hclose := exists_lexFrom_marks hv isApart_nil isApart_nil [] ⟨[], rfl, rfl⟩
      rw [List.append_nil] at hclose
      exact hclose
  | cons c cs ih =>
    by_cases hc : c = '?'
    · subst hc
      rw [standAloneFrom, if_pos rfl] at hparted
      obtain rfl := hchunk (apart_of_standAloneFrom hparted)
      rw [runsFrom, if_pos rfl] at hparams
      have hread : (pendingOf run []).read '?' cs = some ([], pendingOf (run + 1) []) := by
        cases run <;> rfl
      rw [lexFrom_cons hread, fillFrom, if_pos rfl]
      exact ih hcs.tail hparted hchunk hparams
    · rw [standAloneFrom, if_neg hc, Bool.and_eq_true] at hparted
      obtain ⟨hrun, hrest⟩ := hparted
      rw [runsFrom, if_neg hc] at hparams
      have hnext : ∀ (chunk : List Char) (vs : List Value),
          List.Forall₂ (fun run v => Value.Suits run v) (runsFrom 0 cs) vs →
          ∃ ls, lexFrom (.chunk chunk) (c :: cs) = some ls ∧
            lexFrom (.chunk chunk) (c :: fillFrom 0 cs vs) = some (substitute ls vs) := by
        intro chunk vs hvs
        refine exists_lexFrom_cons hc hcs hrest (fun next hempty => ?_) chunk
        exact ih hcs.tail hrest hempty hvs
      cases run with
      | zero =>
        rw [fillFrom_zero_cons hc]
        exact hnext chunk params hparams
      | succ run =>
        have hdelimiter : apart = true ∧ isDelimiter c = true := by simp_all
        obtain rfl := hchunk hdelimiter.1
        rw [if_neg (Nat.succ_ne_zero run)] at hparams
        obtain ⟨v, vs, hv, hvs, rfl⟩ := List.forall₂_cons_left_iff.1 hparams
        have hborder : ∀ ds, IsApart (c :: ds) := fun ds d hd => by
          rw [← Option.some.inj hd]
          exact hdelimiter.2
        obtain ⟨hleft, -⟩ := lexFrom_close hv vs isApart_nil
        rw [fillFrom, if_neg hc, hleft]
        exact exists_lexFrom_marks hv (hborder cs) (hborder _) vs (hnext [] vs hvs)

/-! ## Statements -/

/-- A text without quotes, backticks, backslashes and comments whose runs of marks are placeholders
with a delimiter or an end of the text on both sides. -/
structure IsTemplate (sql : String) : Prop where
  unquoted : ∀ c ∈ sql.toList, c ∉ ['\'', '"', '\x60', '\\']
  uncommented : ∀ c rest, c :: rest <:+ sql.toList → opensComment c rest = false
  parted : IsParted sql.toList

theorem IsTidy.isTemplate {sql : String} (h : IsTidy sql) : IsTemplate sql where
  unquoted c hc hm := by
    have hforeign : ∀ d ∈ ['\'', '"', '\x60', '\\'], isStatementChar d = false :=
      List.all_iff_forall_prop.1 (by decide)
    have hchar := h.chars c hc
    rw [hforeign c hm] at hchar
    cases hchar
  uncommented c rest hs := by
    have hchar := h.chars c (hs.subset (List.mem_cons_self ..))
    have hhash : c ≠ '#' := by
      rintro rfl
      exact absurd hchar (by decide)
    have hslash : c ≠ '/' := by
      rintro rfl
      exact absurd hchar (by decide)
    by_cases hdash : c = '-'
    · -- a space follows, so the dash is not the first of two
      subst hdash
      obtain ⟨front, hfront⟩ := hs
      have hspace := (h.spaced front rest hfront.symm).2
      simp [opensComment, hspace]
    · exact opensComment_of_not_mem (by simp [hhash, hslash, hdash]) rest
  parted := standAlone_iff.1 h.parted

theorem Placeholder.weight_of_le_two {run : Nat} (hrun : 0 < run) (h : run ≤ 2) :
    weight run = 1 := by
  rw [weight, if_pos (by omega)]

/-- Every run of marks in a template is a placeholder. -/
theorem length_runsFrom {apart : Bool} {run : Nat} {cs : List Char}
    (h : standAloneFrom apart run cs = true) : (runsFrom run cs).length = countFrom run cs := by
  have hfinished : ∀ {run : Nat} {b : Bool}, (run == 0 || (b && decide (run ≤ 2))) = true →
      (if run = 0 then [] else [run]).length = weight run := by
    intro run b hrun
    cases run with
    | zero => rfl
    | succ run =>
      rw [if_neg (Nat.succ_ne_zero run), Placeholder.weight_of_le_two (Nat.succ_pos run)]
      · rfl
      · simp_all
  induction cs generalizing apart run with
  | nil => exact hfinished h
  | cons c cs ih =>
    rw [standAloneFrom] at h
    rw [runsFrom, countFrom]
    by_cases hc : c = '?'
    · rw [if_pos hc] at h ⊢
      rw [if_pos hc]
      exact ih h
    · rw [if_neg hc, Bool.and_eq_true] at h
      have hrun : (run == 0 || (apart && decide (run ≤ 2))) = true := by
        rcases Bool.or_eq_true_iff.1 h.1 with hzero | hdone
        · rw [hzero, Bool.true_or]
        · rw [(Bool.and_eq_true_iff.1 hdone).1, Bool.or_true]
      rw [if_neg hc, if_neg hc, List.length_append, ih h.2, hfinished hrun]

/-- Writing values into a statement adds no lexeme and loses none. Let a text have no quotes,
backticks, backslashes and comments, and a delimiter on both sides of every placeholder, and let
there be a value for each placeholder, a text for each name and no float for the others: then the
lexemes of the text with the values written in are its own lexemes with those of the values in
their places. Every statement without texts in the caller's own words is such a text. -/
theorem lex_inlined :
    (∀ (sql : String) (params : List Value), IsTemplate sql →
      params.length = Placeholder.count sql →
      (∀ run v, (run, v) ∈ (Placeholder.runs sql).zip params → v.Suits run) →
      ∃ ls, lex sql = some ls ∧
        lex (Placeholder.fill sql params) = some (substitute ls params)) ∧
    ∀ (b : Builder) (start : Start) (steps : List Step) (q : Query),
      b.build start steps = .ok q → (Program.mk start steps).IsNameOnly →
      IsTemplate q.statement.sql := by
  constructor
  · intro sql params hsql hlength hsuit
    have hparted := standAlone_iff.2 hsql.parted
    have hparams : List.Forall₂ (fun run v => Value.Suits run v) (runs sql) params := by
      refine List.forall₂_iff_zip.2 ⟨?_, fun hm => hsuit _ _ hm⟩
      rw [hlength]
      exact length_runsFrom hparted
    obtain ⟨ls, hls, hfill⟩ := exists_lexFrom_fillFrom ⟨hsql.unquoted, hsql.uncommented⟩ hparted
      (fun _ => rfl) hparams
    refine ⟨ls, hls, ?_⟩
    rw [lex, fill, String.toList_ofList]
    exact hfill
  · intro b start steps q h hp
    exact (Program.isTidy_statement (p := ⟨start, steps⟩) h hp).isTemplate

/-- Names and values that would end their quotations. -/
def quotingParams : List Value :=
  [.text "u\x60..x", .text "t\x60; -- '", .text "it's ?? \\ /*", .bytes [39, 92], .int (-7)]

theorem lex_inlined_quotingParams :
    (∃ ls, lex "SELECT ?? FROM ?? WHERE a = ? AND b = ? AND c < ?" = some ls ∧
      lex (Placeholder.fill "SELECT ?? FROM ?? WHERE a = ? AND b = ? AND c < ?" quotingParams)
        = some (substitute ls quotingParams)) ∧
    Placeholder.fill "SELECT ?? FROM ?? WHERE a = ? AND b = ? AND c < ?" quotingParams
      = "SELECT \x60u\x60\x60\x60.\x60\x60.\x60x\x60 FROM \x60t\x60\x60; -- '\x60 "
        ++ "WHERE a = 'it\\'s ?? \\\\ /*' AND b = X'275c' AND c < -7" ∧
    ∃ q, (Builder.mk none).build (.deleteFrom "t\x60") [.limit (some 1)] = .ok q ∧
      IsTemplate q.statement.sql := by
  obtain ⟨hfill, hbuild⟩ := lex_inlined
  have hplain : isPlainText "SELECT ?? FROM ?? WHERE a = ? AND b = ? AND c < ?" = true := by
    decide
  have hruns : Placeholder.runs "SELECT ?? FROM ?? WHERE a = ? AND b = ? AND c < ?"
      = [2, 2, 1, 1, 1] := by
    decide
  refine ⟨hfill _ _ (IsTidy.of_isPlainText hplain).isTemplate (by decide) fun run v hm => ?_,
    ?_, ?_⟩
  · rw [hruns] at hm
    simp only [quotingParams, List.zip_cons_cons, List.zip_nil_left, List.mem_cons, Prod.mk.injEq,
      List.not_mem_nil, or_false] at hm
    rcases hm with ⟨rfl, rfl⟩ | ⟨rfl, rfl⟩ | ⟨rfl, rfl⟩ | ⟨rfl, rfl⟩ | ⟨rfl, rfl⟩ <;>
      simp [Value.Suits]
  · decide
  · obtain ⟨q, hq⟩ : ∃ q, (Builder.mk none).build (.deleteFrom "t\x60") [.limit (some 1)] = .ok q :=
      ⟨_, rfl⟩
    exact ⟨q, hq, hbuild _ _ _ q hq rfl⟩

end Sqlwright
