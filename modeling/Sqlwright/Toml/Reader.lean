import Sqlwright.Toml.Quoted
import Sqlwright.Toml.Scalar
import Sqlwright.Toml.Table

/-!
# Reading TOML

A document is a list of lines: headers, repeated headers, and keys with values. The value of a line
may itself run over several lines. Lines are applied in order to the tables read so far.
-/

namespace Sqlwright.Toml

/-- What a line says. -/
inductive Line where
  | header (path : List String)
  | seriesHeader (path : List String)
  | assign (path : List String) (value : Toml)

/-- What a key without quotes is made of. -/
def isBareKeyChar (c : Char) : Bool :=
  ('a' ≤ c ∧ c ≤ 'z') || ('A' ≤ c ∧ c ≤ 'Z') || ('0' ≤ c ∧ c ≤ '9') || c == '_' || c == '-'

/-- Reads one part of a key. -/
def readSimpleKey? (cs : List Char) : Option (String × List Char) :=
  match cs with
  | '"' :: _ => readText? true '"' false cs
  | '\'' :: _ => readText? false '\'' false cs
  | cs =>
    let word := cs.takeWhile isBareKeyChar
    if word.isEmpty then none else some (String.ofList word, cs.dropWhile isBareKeyChar)

/-- How deep lists and inline tables may be nested, and how many parts a key may have. -/
def depthLimit : Nat := 80

/-- Reads a key: at most so many parts with dots between them. -/
def readKey? : Nat → List Char → Option (List String × List Char)
  | 0, _ => none
  | most + 1, cs => do
    let (part, rest) ← readSimpleKey? cs
    match skipSpaces rest with
    | '.' :: rest => do
      let (parts, rest) ← readKey? most (skipSpaces rest)
      pure (part :: parts, rest)
    | rest => pure ([part], rest)

/-- Reads a comment, if there is one; gives the rest of the text from the end of its line. -/
def afterComment? : List Char → Option (List Char)
  | '#' :: rest =>
    let comment := rest.takeWhile fun c => c != '\n' && c != '\r'
    if comment.any isForbidden then none
    else some (rest.dropWhile fun c => c != '\n' && c != '\r')
  | cs => some cs

/-- What follows the end of a line: blanks, perhaps a comment, and a line break or the end. -/
def afterLine? (cs : List Char) : Option (List Char) := do
  let rest ← afterComment? (skipSpaces cs)
  match rest with
  | [] => some []
  | rest => afterBreak? rest

/-- Drops blanks, line breaks and comments between the parts of a value. -/
def skipFiller? : Nat → List Char → Option (List Char)
  | 0, _ => none
  | fuel + 1, cs => do
    let rest ← afterComment? (skipSpaces cs)
    match afterBreak? rest with
    | some rest => skipFiller? fuel rest
    | none => some rest

/-- Whether a character ends a scalar. -/
def endsScalar (c : Char) : Bool :=
  [' ', '\t', '\n', '\r', ',', '=', '[', ']', '\x7b', '\x7d', '#'].contains c

/-- The scalar at the front of a text, and what follows. A date and a time may have one space
between them. -/
def takeScalar (cs : List Char) : List Char × List Char :=
  let word := cs.takeWhile fun c => !endsScalar c
  let rest := cs.dropWhile fun c => !endsScalar c
  match rest with
  | ' ' :: d :: more =>
    if Number.isDigit d ∧ afterDate? word = some [] then
      (word ++ ' ' :: (d :: more).takeWhile fun c => !endsScalar c,
        (d :: more).dropWhile fun c => !endsScalar c)
    else (word, rest)
  | _ => (word, rest)

mutual

/-- Reads a value that may hold so many levels of lists and inline tables. Every call uses up fuel,
and twice the text's length is enough of it. -/
def readValue : Nat → Nat → List Char → Option (Toml × List Char)
  | 0, _, _ => none
  | fuel + 1, levels, cs =>
    match cs with
    | '"' :: _ => (readText? true '"' true cs).map fun (s, rest) => (.text s, rest)
    | '\'' :: _ => (readText? false '\'' true cs).map fun (s, rest) => (.text s, rest)
    | '[' :: rest =>
      match levels with
      | 0 => none
      | levels + 1 =>
        (readItems fuel levels [] rest).map fun (items, rest) => (.list items, rest)
    | '\x7b' :: rest =>
      match levels with
      | 0 => none
      | levels + 1 =>
        (readMembers fuel levels [] rest).map fun (ms, rest) => (.table (memberValues ms), rest)
    | cs =>
      let (word, rest) := takeScalar cs
      (readScalar? word).map fun v => (v, rest)

/-- Reads the rest of a list, after the items in `done`. -/
def readItems : Nat → Nat → List Toml → List Char → Option (List Toml × List Char)
  | 0, _, _, _ => none
  | fuel + 1, levels, done, cs =>
    match skipFiller? (cs.length + 1) cs with
    | none => none
    | some (']' :: rest) => some (done.reverse, rest)
    | some rest =>
      match readValue fuel levels rest with
      | none => none
      | some (v, rest) =>
        match skipFiller? (rest.length + 1) rest with
        | some (',' :: rest) => readItems fuel levels (v :: done) rest
        | some (']' :: rest) => some ((v :: done).reverse, rest)
        | _ => none

/-- Reads the rest of an inline table, after the members in `done`. There may be line breaks and
comments on both sides of an equals sign, but not within a key. -/
def readMembers : Nat → Nat → Members → List Char → Option (Members × List Char)
  | 0, _, _, _ => none
  | fuel + 1, levels, done, cs =>
    match skipFiller? (cs.length + 1) cs with
    | none => none
    | some ('\x7d' :: rest) => some (done, rest)
    | some rest =>
      match readKey? depthLimit rest with
      | none => none
      | some (path, rest) =>
        match skipFiller? (rest.length + 1) rest with
        | some ('=' :: rest) =>
          match (skipFiller? (rest.length + 1) rest).bind (readValue fuel levels) with
          | none => none
          | some (v, rest) =>
            match done.assign v path with
            | none => none
            | some done =>
              match skipFiller? (rest.length + 1) rest with
              | some (',' :: rest) => readMembers fuel levels done rest
              | some ('\x7d' :: rest) => some (done, rest)
              | _ => none
        | _ => none

end

/-- Reads a header behind its opening brackets. -/
def readHeader? (cs : List Char) : Option (List String × List Char) :=
  readKey? depthLimit (skipSpaces cs)

/-- Reads one line that says something. -/
def readLine? (cs : List Char) : Option (Line × List Char) :=
  match cs with
  | '[' :: '[' :: rest => do
    let (path, rest) ← readHeader? rest
    match rest with
    | ']' :: ']' :: rest => do pure (.seriesHeader path, ← afterLine? rest)
    | _ => none
  | '[' :: rest => do
    let (path, rest) ← readHeader? rest
    match rest with
    | ']' :: rest => do pure (.header path, ← afterLine? rest)
    | _ => none
  | cs => do
    let (path, rest) ← readKey? depthLimit cs
    match rest with
    | '=' :: rest => do
      let (v, rest) ← readValue (2 * rest.length + 2) depthLimit (skipSpaces rest)
      pure (.assign path v, ← afterLine? rest)
    | _ => none

/-- Reads the lines of a document. -/
def readLines? : Nat → List Char → Option (List Line)
  | 0, _ => none
  | fuel + 1, cs => do
    match ← skipFiller? (cs.length + 1) cs with
    | [] => pure []
    | rest => do
      let (line, rest) ← readLine? rest
      let lines ← readLines? fuel rest
      pure (line :: lines)

/-- Applies lines to the tables read so far; keys go to the table at the path of the last header. -/
def applyLines (path : List String) (ms : Members) : List Line → Option Members
  | [] => some ms
  | .header path :: rest => do
    let ms ← ms.atHeader Members.openTable path
    applyLines path ms rest
  | .seriesHeader path :: rest => do
    let ms ← ms.atHeader Members.openSeries path
    applyLines path ms rest
  | .assign key value :: rest => do
    let ms ← ms.within (Members.assign value key) path
    applyLines path ms rest

/-- Reads a document: its members in order, or nothing if it is malformed. -/
def read? (s : String) : Option (List (String × Toml)) := do
  let cs := match s.toList with
    | '\uFEFF' :: cs => cs
    | cs => cs
  let lines ← readLines? (cs.length + 1) cs
  let ms ← applyLines [] [] lines
  pure (memberValues ms)

end Sqlwright.Toml
