import Sqlwright.Execution
import Sqlwright.Text.Blank

/-!
# Logging around executors

A layer of logging reports every statement before it is run, with its parameters written into it,
and reports a failure after it. It hands statement and result through unchanged.
-/

namespace Sqlwright

/-- What a statement does, by its leading word. -/
inductive StatementKind where
  | select
  | insert
  | update
  | delete
  | other
  deriving DecidableEq, Repr

namespace StatementKind

/-- The name of a kind. -/
def label : StatementKind → String
  | .select => "Select"
  | .insert => "Insert"
  | .update => "Update"
  | .delete => "Delete"
  | .other => "Other"

/-- The leading word of a text: after blanks, up to a blank or an opening parenthesis. -/
def leadingWord (cs : List Char) : List Char :=
  (Text.trimFront cs).takeWhile fun c => !Text.isBlank c && c != '('

/-- The kind of a statement. The case of ASCII letters does not matter. -/
def ofSql (sql : String) : StatementKind :=
  let word := String.ofList ((leadingWord sql.toList).map Char.toUpper)
  if word = "SELECT" then .select
  else if word = "INSERT" then .insert
  else if word = "UPDATE" then .update
  else if word = "DELETE" then .delete
  else .other

end StatementKind

/-- The last border between two characters of a text that is not behind a byte. Going back byte by
byte ends at the latest at the start, which is a border of every text. -/
def lastBorder (s : String) : Nat → s.Pos
  | 0 => s.startPos
  | byte + 1 =>
    if h : String.Pos.Raw.IsValid s ⟨byte + 1⟩ then ⟨⟨byte + 1⟩, h⟩ else lastBorder s byte

/-- A text that fits into a number of bytes, or its front up to the last border that does. -/
def truncate (s : String) (room : Nat) : String :=
  if s.utf8ByteSize ≤ room then s else (s.sliceTo (lastBorder s room)).copy

namespace LogLayer

/-- A statement as the log shows it: cut to the limit, with dots behind a cut. -/
def shown (l : LogLayer) (s : Statement) : String :=
  let whole := Placeholder.fill s.sql s.params
  match l.limit with
  | some limit => if limit < whole.utf8ByteSize then truncate whole limit ++ "..." else whole
  | none => whole

/-- What is reported before a statement is run. -/
def before (l : LogLayer) (s : Statement) : Event :=
  ⟨l.level, .statements,
    [("connection", l.connection), ("query_type", (StatementKind.ofSql s.sql).label),
     ("param_count", toString s.params.length), ("sql", l.shown s)]⟩

/-- What is reported after a statement failed. -/
def failure (l : LogLayer) (f : Fault) : Event :=
  ⟨.warn, .statements,
    [("connection", l.connection), ("error", f.message), ("message", "statement failed")]⟩

/-- What is reported after a statement was run. -/
def after (l : LogLayer) : Except Fault Output → List Event
  | .ok _ => []
  | .error f => [l.failure f]

end LogLayer

/-- Runs a statement. -/
def Executor.run : Executor → Statement → Run
  | .base name respond, s => ⟨respond s, [.call ⟨name, s⟩]⟩
  | .logged layer inner, s =>
    let r := inner.run s
    ⟨r.result,
      .event (layer.before s) :: (r.effects ++ (layer.after r.result).map Effect.event)⟩

end Sqlwright
