import Mathlib.Data.List.TakeWhile
import Sqlwright.Proofs.Tidy

/-!
# Lexemes of a statement

The lexical rules of MySQL: words, numbers and operators; names between backticks, where a backtick
is doubled; texts between quotes, where a quote is doubled or stands behind a backslash; octets as
hexadecimal digits. A text in which a comment opens or a quotation does not close has no lexemes
here. A run of question marks is a lexeme of its own, as the placeholders of a statement are.

The characters of a text are read one by one, with what is pending of the last lexeme. Characters
that open no quotation gather in a chunk up to the next blank, comma, parenthesis or quotation, and
a chunk is cut into lexemes by itself.
-/

namespace Sqlwright

/-- The lexemes of a statement. -/
inductive Lexeme where
  | word (text : String)
  /-- A number of nothing but decimal digits. -/
  | integer (value : Nat)
  /-- A number with a point or an exponent. -/
  | number (text : String)
  | symbol (text : String)
  /-- A run of question marks. -/
  | marks (count : Nat)
  /-- A name between backticks. -/
  | name (content : String)
  /-- A text between quotes. -/
  | text (content : String)
  | octets (content : List UInt8)
  deriving DecidableEq, Repr

namespace Lexeme

/-! ## Chunks -/

/-- The characters of words. -/
def isNameChar (c : Char) : Bool :=
  Name.isWordChar c || c == '$' || decide (0x80 ≤ c.toNat)

/-- The exponent that a text begins with, if any. -/
def exponent : List Char → List Char
  | e :: s :: cs =>
    if ¬(e = 'e' ∨ e = 'E') then []
    else if s.isDigit then e :: (s :: cs).takeWhile Char.isDigit
    else if (s = '+' ∨ s = '-') ∧ cs.head?.any Char.isDigit then
      e :: s :: cs.takeWhile Char.isDigit
    else []
  | _ => []

/-- The number that a text begins with, or the word that begins with its digits, and the rest of the
text. -/
def takeNumber (cs : List Char) : Lexeme × List Char :=
  let whole := cs.takeWhile Char.isDigit
  match cs.dropWhile Char.isDigit with
  | '.' :: rest =>
    let decimals := rest.takeWhile Char.isDigit
    let more := exponent (rest.dropWhile Char.isDigit)
    (.number (String.ofList (whole ++ '.' :: (decimals ++ more))),
      (rest.dropWhile Char.isDigit).drop more.length)
  | rest =>
    let more := exponent rest
    if more ≠ [] then (.number (String.ofList (whole ++ more)), rest.drop more.length)
    else if rest.head?.any isNameChar then
      (.word (String.ofList (whole ++ rest.takeWhile isNameChar)), rest.dropWhile isNameChar)
    else (.integer (Nat.ofDigitChars 10 whole 0), rest)

/-- The operators of more than one character; one comes before those that it begins with. -/
def operators : List String :=
  ["<=>", "->>", "<=", ">=", "<>", "!=", "<<", ">>", "&&", "||", ":=", "->"]

/-- The operator that a text begins with, or its first character, and the rest of the text. -/
def takeSymbol (c : Char) (cs : List Char) : Lexeme × List Char :=
  match operators.find? fun op => op.toList.isPrefixOf (c :: cs) with
  | some op => (.symbol op, (c :: cs).drop op.length)
  | none => (.symbol (String.singleton c), cs)

/-- Whether a number begins. Digits behind a point that parts two names are a name, and a point
behind a name begins no number. -/
def beginsNumber (last : Option Lexeme) (c : Char) (cs : List Char) : Bool :=
  match last with
  | some (.word _) | some (.symbol ".") => false
  | _ => c.isDigit || (c == '.' && cs.head?.any Char.isDigit)

/-- The lexeme that a chunk begins with, and the rest of the chunk. `last` is the lexeme directly in
front of it. -/
def takeLexeme (last : Option Lexeme) (c : Char) (cs : List Char) : Lexeme × List Char :=
  if beginsNumber last c cs then takeNumber (c :: cs)
  else if isNameChar c then
    (.word (String.ofList ((c :: cs).takeWhile isNameChar)), (c :: cs).dropWhile isNameChar)
  else takeSymbol c cs

/-- At most so many lexemes of a chunk. -/
def chunkFrom : Nat → Option Lexeme → List Char → List Lexeme
  | fuel + 1, last, c :: cs =>
    let next := takeLexeme last c cs
    next.1 :: chunkFrom fuel (some next.1) next.2
  | _, _, _ => []

/-- The lexemes of a chunk. Each takes at least one character. -/
def ofChunk (cs : List Char) : List Lexeme := chunkFrom cs.length none cs

/-! ## Reading a text -/

/-- What is pending of the last lexeme. -/
inductive Pending where
  | chunk (cs : List Char)
  | marks (count : Nat)
  | quoted (quote : Char) (content : List Char)
  /-- Behind a backslash in a quotation. -/
  | escaped (quote : Char) (content : List Char)
  /-- Behind a quote that closes a quotation, unless it is doubled. -/
  | closing (quote : Char) (content : List Char)
  | digits (cs : List Char)

/-- What a backslash and a character stand for. -/
def unescape (c : Char) : List Char :=
  match c with
  | '0' => ['\x00']
  | 'b' => ['\x08']
  | 't' => ['\t']
  | 'n' => ['\n']
  | 'r' => ['\r']
  | 'Z' => ['\x1a']
  | '%' => ['\\', '%']
  | '_' => ['\\', '_']
  | c => [c]

/-- The lexeme of a quotation. -/
def ofQuoted (quote : Char) (content : List Char) : Lexeme :=
  if quote = '\x60' then .name (String.ofList content) else .text (String.ofList content)

/-- The value of a hexadecimal digit. -/
def hexValue? (c : Char) : Option Nat :=
  if '0' ≤ c ∧ c ≤ '9' then some (c.toNat - '0'.toNat)
  else if 'a' ≤ c ∧ c ≤ 'f' then some (c.toNat - 'a'.toNat + 10)
  else if 'A' ≤ c ∧ c ≤ 'F' then some (c.toNat - 'A'.toNat + 10)
  else none

/-- The octets of hexadecimal digits, two for each. -/
def octetsOf? : List Char → Option (List UInt8)
  | [] => some []
  | [_] => none
  | high :: low :: cs =>
    (hexValue? high).bind fun h => (hexValue? low).bind fun l =>
      (octetsOf? cs).map (UInt8.ofNat (16 * h + l) :: ·)

/-- Whether a comment opens. Two dashes open one if a blank, a control character or nothing
follows. -/
def opensComment (c : Char) (rest : List Char) : Bool :=
  c == '#' || (c == '/' && rest.head? == some '*')
    || (c == '-' && rest.head? == some '-'
      && (rest.drop 1).head?.all fun d => decide (d.toNat ≤ 0x20) || d == '\x7f')

/-- What parts two chunks: a symbol, or a blank that is no lexeme. -/
def separator? (c : Char) : Option (List Lexeme) :=
  if c ∈ [',', '(', ')'] then some [.symbol (String.singleton c)]
  else if c ∈ [' ', '\t', '\n', '\x0b', '\x0c', '\r'] then some []
  else none

/-- Whether the last lexeme makes the text behind it octets. -/
def isHexPrefix (last : Option Lexeme) : Bool :=
  last == some (.word "X") || last == some (.word "x")

/-- Reads a character outside of quotations and runs of marks: the lexemes that it completes, and
what is pending behind it. -/
def readChar (cs : List Char) (c : Char) (rest : List Char) : Option (List Lexeme × Pending) :=
  if opensComment c rest then none
  else if c = '?' then some (ofChunk cs, .marks 1)
  else if c = '\'' ∧ isHexPrefix (ofChunk cs).getLast? then
    some ((ofChunk cs).dropLast, .digits [])
  else if c = '\'' ∨ c = '"' ∨ c = '\x60' then some (ofChunk cs, .quoted c [])
  else match separator? c with
    | some lexemes => some (ofChunk cs ++ lexemes, .chunk [])
    | none => some ([], .chunk (cs ++ [c]))

/-- Reads a character. -/
def Pending.read : Pending → Char → List Char → Option (List Lexeme × Pending)
  | .chunk cs, c, rest => readChar cs c rest
  | .marks count, c, rest =>
    if c = '?' then some ([], .marks (count + 1))
    else (readChar [] c rest).map fun out => (.marks count :: out.1, out.2)
  | .quoted quote content, c, _ =>
    if c = quote then some ([], .closing quote content)
    else if c = '\\' ∧ quote ≠ '\x60' then some ([], .escaped quote content)
    else some ([], .quoted quote (content ++ [c]))
  | .escaped quote content, c, _ => some ([], .quoted quote (content ++ unescape c))
  | .closing quote content, c, rest =>
    if c = quote then some ([], .quoted quote (content ++ [quote]))
    else (readChar [] c rest).map fun out => (ofQuoted quote content :: out.1, out.2)
  | .digits cs, c, _ =>
    if c = '\'' then (octetsOf? cs).map fun content => ([.octets content], .chunk [])
    else some ([], .digits (cs ++ [c]))

/-- The lexemes that the end of a text completes. -/
def Pending.finish : Pending → Option (List Lexeme)
  | .chunk cs => some (ofChunk cs)
  | .marks count => some [.marks count]
  | .closing quote content => some [ofQuoted quote content]
  | .quoted _ _ | .escaped _ _ | .digits _ => none

/-- The lexemes of a text behind what is pending. -/
def lexFrom (p : Pending) : List Char → Option (List Lexeme)
  | [] => p.finish
  | c :: cs => (p.read c cs).bind fun out => (lexFrom out.2 cs).map (out.1 ++ ·)

/-- The lexemes of a text. -/
def lex (sql : String) : Option (List Lexeme) := lexFrom (.chunk []) sql.toList

example : lex ("SELECT t.1a, .5e-3 <=> -7 FROM \x60a\x60\x60b\x60 "
      ++ "WHERE x = X'0fA0' AND y IN (?, 'it\\'s')")
    = some [.word "SELECT", .word "t", .symbol ".", .word "1a", .symbol ",", .number ".5e-3",
      .symbol "<=>", .symbol "-", .integer 7, .word "FROM", .name "a\x60b", .word "WHERE",
      .word "x", .symbol "=", .octets [15, 160], .word "AND", .word "y", .word "IN", .symbol "(",
      .marks 1, .symbol ",", .text "it's", .symbol ")"] := by
  decide +kernel

/-! ## Chunks of one kind -/

@[simp] theorem ofChunk_nil : ofChunk [] = [] := rfl

/-- Decimal digits are one number. -/
theorem takeNumber_of_digits {cs : List Char} (h : ∀ c ∈ cs, c.isDigit = true) :
    takeNumber cs = (.integer (Nat.ofDigitChars 10 cs 0), []) := by
  have hwhole : cs.takeWhile Char.isDigit = cs := List.takeWhile_eq_self_iff.2 h
  have hrest : cs.dropWhile Char.isDigit = [] := List.dropWhile_eq_nil_iff.2 h
  rw [takeNumber, hwhole, hrest]
  simp [exponent]

theorem chunkFrom_of_digits {cs : List Char} (h : ∀ c ∈ cs, c.isDigit = true) (hne : cs ≠ [])
    (fuel : Nat) {last : Option Lexeme} (hl : last = none ∨ last = some (.symbol "-")) :
    chunkFrom (fuel + 1) last cs = [.integer (Nat.ofDigitChars 10 cs 0)] := by
  obtain ⟨c, ds, rfl⟩ := List.exists_cons_of_ne_nil hne
  have hbegins : beginsNumber last c ds = true := by
    rcases hl with rfl | rfl <;> simp [beginsNumber, h c (by simp)]
  rw [chunkFrom, takeLexeme, if_pos hbegins, takeNumber_of_digits h]
  cases fuel <;> rfl

theorem ofChunk_digits {cs : List Char} (h : ∀ c ∈ cs, c.isDigit = true) (hne : cs ≠ []) :
    ofChunk cs = [.integer (Nat.ofDigitChars 10 cs 0)] := by
  obtain ⟨n, hn⟩ := Nat.exists_eq_succ_of_ne_zero (List.length_pos_iff.2 hne).ne'
  rw [ofChunk, hn]
  exact chunkFrom_of_digits h hne n (.inl rfl)

/-- A sign in front of digits is a lexeme of its own. -/
theorem ofChunk_signed {cs : List Char} (h : ∀ c ∈ cs, c.isDigit = true) (hne : cs ≠ []) :
    ofChunk ('-' :: cs) = [.symbol "-", .integer (Nat.ofDigitChars 10 cs 0)] := by
  obtain ⟨n, hn⟩ := Nat.exists_eq_succ_of_ne_zero (List.length_pos_iff.2 hne).ne'
  obtain ⟨c, ds, rfl⟩ := List.exists_cons_of_ne_nil hne
  have hdigit := h c (by simp)
  have hsymbol : takeSymbol '-' (c :: ds) = (.symbol "-", c :: ds) := by
    have hpoint : c ≠ '>' := by
      rintro rfl
      exact absurd hdigit (by decide)
    have hnone : (operators.find? fun op => op.toList.isPrefixOf ('-' :: c :: ds)) = none := by
      simp [operators, List.isPrefixOf, hpoint.symm]
    rw [takeSymbol, hnone]
    rfl
  have hlexeme : takeLexeme none '-' (c :: ds) = (.symbol "-", c :: ds) := by
    have hno : beginsNumber none '-' (c :: ds) = false := rfl
    have hname : isNameChar '-' = false := by decide
    rw [takeLexeme, hno, hname, if_neg (by simp), if_neg (by simp), hsymbol]
  rw [ofChunk, List.length_cons, hn, chunkFrom, hlexeme]
  rw [chunkFrom_of_digits h hne n (.inr rfl)]

theorem takeNumber_ne_marks (cs : List Char) (n : Nat) : (takeNumber cs).1 ≠ .marks n := by
  rw [takeNumber]
  split
  · simp
  · dsimp only
    split
    · simp
    · split <;> simp

/-- No run of marks comes out of a chunk. -/
theorem takeLexeme_ne_marks (last : Option Lexeme) (c : Char) (cs : List Char) (n : Nat) :
    (takeLexeme last c cs).1 ≠ .marks n := by
  rw [takeLexeme]
  split
  · exact takeNumber_ne_marks (c :: cs) n
  · split
    · simp
    · rw [takeSymbol]
      split <;> simp

theorem ne_marks_of_mem_chunkFrom {fuel : Nat} {last : Option Lexeme} {cs : List Char}
    {l : Lexeme} (h : l ∈ chunkFrom fuel last cs) (n : Nat) : l ≠ .marks n := by
  induction fuel generalizing last cs with
  | zero => cases h
  | succ fuel ih =>
    cases cs with
    | nil => cases h
    | cons c cs =>
      rw [chunkFrom] at h
      rcases List.mem_cons.1 h with rfl | h
      · exact takeLexeme_ne_marks last c cs n
      · exact ih h

end Lexeme

end Sqlwright
