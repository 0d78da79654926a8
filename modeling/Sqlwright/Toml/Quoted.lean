import Sqlwright.Document.Reader
import Sqlwright.Toml

/-!
# TOML texts

Texts between quotes: with escapes or literal, on one line or on several. In a text of several
lines the line break behind the opening quotes is dropped, and a backslash at the end of a line
drops all blanks up to the next character.
-/

namespace Sqlwright.Toml

/-- Whether a text may not hold a character: every control character but the tab. -/
def isForbidden (c : Char) : Bool := (decide (c.toNat < 0x20) && c != '\t') || c == '\x7f'

/-- Drops spaces and tabs. -/
def skipSpaces (cs : List Char) : List Char := cs.dropWhile fun c => c == ' ' || c == '\t'

/-- What follows a line break, if the text starts with one. -/
def afterBreak? : List Char → Option (List Char)
  | '\n' :: rest => some rest
  | '\r' :: '\n' :: rest => some rest
  | _ => none

/-- The character of a number, unless it is half of a surrogate pair or too large. -/
def scalar? (n : Nat) : Option Char :=
  if n < 0xD800 ∨ (0xDFFF < n ∧ n < 0x110000) then some (Char.ofNat n) else none

/-- The number that some hexadecimal digits spell, and what follows them. -/
def hexDigits? (count : Nat) (cs : List Char) : Option (Nat × List Char) := do
  let ds := cs.take count
  if ds.length < count then none
  else do
    let vs ← ds.mapM Document.hexValue?
    pure (vs.foldl (fun n v => 16 * n + v) 0, cs.drop count)

/-- Reads an escape behind its backslash. -/
def readEscape? : List Char → Option (Char × List Char)
  | 'b' :: rest => some ('\x08', rest)
  | 't' :: rest => some ('\t', rest)
  | 'n' :: rest => some ('\n', rest)
  | 'f' :: rest => some ('\x0c', rest)
  | 'r' :: rest => some ('\r', rest)
  | 'e' :: rest => some ('\x1b', rest)
  | '"' :: rest => some ('"', rest)
  | '\\' :: rest => some ('\\', rest)
  | 'x' :: rest => do
    let (n, rest) ← hexDigits? 2 rest
    pure (← scalar? n, rest)
  | 'u' :: rest => do
    let (n, rest) ← hexDigits? 4 rest
    pure (← scalar? n, rest)
  | 'U' :: rest => do
    let (n, rest) ← hexDigits? 8 rest
    pure (← scalar? n, rest)
  | _ => none

/-- Reads the rest of a text on one line. Every step uses up fuel, and the text's length is enough
of it; `done` holds the characters read so far in reverse. -/
def readInline (escapes : Bool) (quote : Char) :
    Nat → List Char → List Char → Option (String × List Char)
  | 0, _, _ => none
  | _, _, [] => none
  | fuel + 1, done, c :: rest =>
    if c = quote then some (String.ofList done.reverse, rest)
    else if c = '\\' ∧ escapes then
      match readEscape? rest with
      | some (e, rest) => readInline escapes quote fuel (e :: done) rest
      | none => none
    else if isForbidden c then none
    else readInline escapes quote fuel (c :: done) rest

/-- Reads the rest of a text on several lines. Three quotes close it, and up to two more in front
of them belong to the text. While `trimming`, blanks and line breaks are dropped. -/
def readMultiline (escapes : Bool) (quote : Char) :
    Nat → Bool → List Char → List Char → Option (String × List Char)
  | 0, _, _, _ => none
  | _, _, _, [] => none
  | fuel + 1, trimming, done, c :: rest =>
    if c = quote then
      let run := (c :: rest).takeWhile (· == quote)
      if run.length < 3 then readMultiline escapes quote fuel false (c :: done) rest
      else
        let kept := min run.length 5 - 3
        some (String.ofList (List.replicate kept quote ++ done).reverse,
          rest.drop (kept + 2))
    else if c = '\\' ∧ escapes then
      if (afterBreak? (skipSpaces rest)).isSome then readMultiline escapes quote fuel true done rest
      else match readEscape? rest with
        | some (e, rest) => readMultiline escapes quote fuel false (e :: done) rest
        | none => none
    else if c = '\n' ∨ (c = '\r' ∧ rest.head? = some '\n') then
      readMultiline escapes quote fuel trimming (if trimming then done else c :: done) rest
    else if isForbidden c then none
    else if trimming ∧ (c = ' ' ∨ c = '\t') then readMultiline escapes quote fuel true done rest
    else readMultiline escapes quote fuel false (c :: done) rest

/-- Reads a text at its opening quote. -/
def readText? (escapes : Bool) (quote : Char) (multiline : Bool) (cs : List Char) :
    Option (String × List Char) :=
  if multiline ∧ cs.take 3 = [quote, quote, quote] then
    let body := cs.drop 3
    let body := (afterBreak? body).getD body
    readMultiline escapes quote (body.length + 1) false [] body
  else
    let body := cs.drop 1
    readInline escapes quote (body.length + 1) [] body

end Sqlwright.Toml
