import Sqlwright.Name

/-!
# The tokens of a predicate's text

A text is scanned into words, runs of signs, quoted texts and parentheses. White space only parts
tokens; what stands between quotes is never looked at again; a text with a comment or a second
statement in it has no tokens. Scanning goes character by character, so a text that is finished
where a blank or a parenthesis follows has the same tokens in front of anything
(`scanFrom_append_break`).
-/

namespace Sqlwright.Condition

inductive Token where
  | word (text : List Char)
  | signs (text : List Char)
  | quoted (quote : Char) (text : List Char)
  | opening
  | closing
  deriving DecidableEq, Repr

/-- What a character outside quotes does to the scan. -/
inductive CharRole where
  | blank
  | opening
  | closing
  | quote
  | word
  | sign
  /-- Starts a comment or ends the statement. -/
  | foreign
  deriving DecidableEq, Repr

/-- The white space between tokens. -/
def separators : List Char := [' ', '\t', '\n', '\r', '\x0b', '\x0c']

/-- The characters of words: those of names, and all beyond ASCII. -/
def isWordPart (c : Char) : Bool :=
  Name.isColumnChar c || c == '$' || c == '@' || decide (0x80 ≤ c.toNat)

def charRole (c : Char) : CharRole :=
  if isWordPart c then .word
  else if c ∈ separators then .blank
  else if c = '(' then .opening
  else if c = ')' then .closing
  else if c = '\'' ∨ c = '"' ∨ c = '\x60' then .quote
  else if c = '#' ∨ c = ';' then .foreign
  else .sign

/-- The token being scanned. -/
inductive Pending where
  | gap
  | word (text : List Char)
  | signs (text : List Char)
  /-- Between quotes; a backslash may have escaped the next character. -/
  | quoted (quote : Char) (text : List Char) (escaped : Bool)

/-- The tokens of a scan that stops. -/
def Pending.finish : Pending → Option (List Token)
  | .gap => some []
  | .word text => some [.word text]
  | .signs text => some [.signs text]
  | .quoted _ _ _ => none

/-- Whether a sign behind others opens a comment. -/
def opensComment (before : List Char) (c : Char) : Bool :=
  (before.getLast? == some '-' && c == '-') || (before.getLast? == some '/' && c == '*')

def pushQuoted (quote : Char) (text : List Char) (escaped : Bool) (c : Char) :
    List Token × Pending :=
  if escaped then ([], .quoted quote (text ++ [c]) false)
  else if c = quote then ([.quoted quote text], .gap)
  else ([], .quoted quote (text ++ [c]) (c == '\\' && quote != '\x60'))

/-- The tokens of a character that ends every token before it. -/
def CharRole.breakTokens : CharRole → Option (List Token)
  | .blank => some []
  | .opening => some [.opening]
  | .closing => some [.closing]
  | .quote | .word | .sign | .foreign => none

def Pending.pushWord (c : Char) (done : List Token) : Pending → List Token × Pending
  | .word text => ([], .word (text ++ [c]))
  | _ => (done, .word [c])

/-- A sign, which may not open a comment. -/
def Pending.pushSign (c : Char) (done : List Token) : Pending → Option (List Token × Pending)
  | .signs text => if opensComment text c then none else some ([], .signs (text ++ [c]))
  | _ => some (done, .signs [c])

/-- A character of a role outside quotes; `done` holds the tokens of a stop in front of it. -/
def Pending.pushPlain (p : Pending) (c : Char) (done : List Token) :
    CharRole → Option (List Token × Pending)
  | .blank => some (done, .gap)
  | .opening => some (done ++ [.opening], .gap)
  | .closing => some (done ++ [.closing], .gap)
  | .quote => some (done, .quoted c [] false)
  | .word => some (p.pushWord c done)
  | .sign => p.pushSign c done
  | .foreign => none

/-- The tokens that a character completes, and the token being scanned behind it. -/
def Pending.push (c : Char) : Pending → Option (List Token × Pending)
  | .quoted quote text escaped => some (pushQuoted quote text escaped c)
  | .gap => Pending.gap.pushPlain c [] (charRole c)
  | .word text => (Pending.word text).pushPlain c [.word text] (charRole c)
  | .signs text => (Pending.signs text).pushPlain c [.signs text] (charRole c)

/-- The tokens of a text that continues a token. -/
def scanFrom (p : Pending) : List Char → Option (List Token)
  | [] => p.finish
  | c :: cs => (p.push c).bind fun step => (scanFrom step.2 cs).map (step.1 ++ ·)

def scan (s : String) : Option (List Token) := scanFrom .gap s.toList

/-- A blank or a parenthesis completes the token before it. -/
theorem Pending.push_break {p : Pending} {c : Char} {ts k : List Token}
    (hk : (charRole c).breakTokens = some k) (hp : p.finish = some ts) :
    p.push c = some (ts ++ k, .gap) := by
  have hpush : p.push c = p.pushPlain c ts (charRole c) := by
    cases p <;> cases hp <;> rfl
  rw [hpush]
  generalize charRole c = r at hk
  cases r with
  | blank => cases hk; rw [List.append_nil]; rfl
  | opening | closing => cases hk; rfl
  | quote | word | sign | foreign => cases hk

/-- In front of a blank or a parenthesis a text has the tokens that it has alone. -/
theorem scanFrom_append_break {p : Pending} {s t : List Char} {c : Char} {ts us k : List Token}
    (hk : (charRole c).breakTokens = some k) (hs : scanFrom p s = some ts)
    (ht : scanFrom .gap t = some us) : scanFrom p (s ++ c :: t) = some (ts ++ k ++ us) := by
  induction s generalizing p ts with
  | nil =>
    rw [List.nil_append, scanFrom, Pending.push_break hk hs, Option.bind_some, ht,
      Option.map_some]
  | cons d s ih =>
    rw [scanFrom] at hs
    obtain ⟨⟨out, q⟩, hpush, hq⟩ := Option.bind_eq_some_iff.1 hs
    obtain ⟨vs, hvs, rfl⟩ := Option.map_eq_some_iff.1 hq
    rw [List.cons_append, scanFrom, hpush, Option.bind_some, ih hvs, Option.map_some]
    simp

theorem scan_append_blank {s t : String} {ts us : List Token} (hs : scan s = some ts)
    (ht : scan t = some us) : scan (s ++ " " ++ t) = some (ts ++ us) := by
  have h := scanFrom_append_break (c := ' ') (k := []) (by decide) hs ht
  rw [scan, String.toList_append, String.toList_append, List.append_assoc]
  simpa using h

theorem scan_parenthesized {s : String} {ts : List Token} (hs : scan s = some ts) :
    scan ("(" ++ s ++ ")") = some (.opening :: ts ++ [.closing]) := by
  have hclose := scanFrom_append_break (c := ')') (k := [.closing]) (by decide) hs (t := []) rfl
  have hempty : scanFrom .gap [] = some [] := rfl
  have hopen := scanFrom_append_break (c := '(') (k := [.opening]) (by decide) hempty hclose
  rw [scan, String.toList_append, String.toList_append]
  simpa using hopen

/-- A text of word characters is one word. -/
theorem scanFrom_word {cs : List Char} (h : ∀ c ∈ cs, isWordPart c = true) (text : List Char) :
    scanFrom (.word text) cs = some [.word (text ++ cs)] := by
  induction cs generalizing text with
  | nil => simp [scanFrom, Pending.finish]
  | cons c cs ih =>
    have hr : charRole c = .word := by simp [charRole, h c (by simp)]
    have hpush : (Pending.word text).push c = some ([], .word (text ++ [c])) := by
      rw [Pending.push, hr]
      rfl
    rw [scanFrom, hpush, Option.bind_some, ih (fun d hd => h d (by simp [hd]))]
    simp

theorem scan_word {s : String} (hs : s ≠ "") (h : ∀ c ∈ s.toList, isWordPart c = true) :
    scan s = some [.word s.toList] := by
  rw [scan]
  cases hl : s.toList with
  | nil => exact absurd (String.toList_eq_nil_iff.1 hl) hs
  | cons c cs =>
    rw [hl] at h
    have hr : charRole c = .word := by simp [charRole, h c (by simp)]
    have hpush : Pending.gap.push c = some ([], .word [c]) := by
      rw [Pending.push, hr]
      rfl
    rw [scanFrom, hpush, Option.bind_some, scanFrom_word (fun d hd => h d (by simp [hd]))]
    simp

end Sqlwright.Condition
