import Sqlwright.Condition
import Sqlwright.Document.Compact
import Sqlwright.Fault

/-!
# Conditions from documents

An object is a condition: its keys `AND`, `OR` and `RAW` open a group or hold a caller's predicate,
and every other key names a column, tested against a value, a list of values or an object of
operators. The tree has one entry for each member, in the document's order, and the first fault in
that order is the one reported.
-/

namespace Sqlwright.Condition

/-- The keys of an object that builds a pattern from a part of the text. -/
def Pattern.forms : List (String × (String → Pattern)) :=
  [("contains", .contains), ("startsWith", .startsWith), ("endsWith", .endsWith)]

/-- Reads a pattern: a text, or an object with one of the forms whose value is a text or a
number. -/
def Pattern.read (label : String) : Document → Except Fault Pattern
  | .text s => .ok (.verbatim s)
  | .object members =>
    match Pattern.forms.filter fun form => Document.hasMember form.1 members with
    | [] => .error (.patternShape label)
    | [form] =>
      match Document.member? form.1 members with
      | some (.text s) => .ok (form.2 s)
      | some (.number n) => .ok (form.2 n.text)
      | _ => .error (.patternShape label)
    | _ => .error (.patternConflict label)
  | _ => .error (.patternShape label)

/-- Reads a list of values. -/
def readValues (label : String) : Document → Except Fault (List Value)
  | .list items => .ok (items.map Value.ofDocument)
  | _ => .error (.listShape label)

/-- Reads one operator with its payload. -/
def Op.read (name : String) (payload : Document) : Except Fault Op :=
  match name with
  | "=" => .ok (.compare .eq (.ofDocument payload))
  | "!=" => .ok (.compare .ne (.ofDocument payload))
  | "<" => .ok (.compare .lt (.ofDocument payload))
  | "<=" => .ok (.compare .le (.ofDocument payload))
  | ">" => .ok (.compare .gt (.ofDocument payload))
  | ">=" => .ok (.compare .ge (.ofDocument payload))
  | "LIKE" => (Pattern.read name payload).map (.like false)
  | "NOT_LIKE" => (Pattern.read name payload).map (.like true)
  | "REGEXP" => .ok (.regexp (.ofDocument payload))
  | "IN" => (readValues name payload).map (.oneOf false)
  | "NOT_IN" => (readValues name payload).map (.oneOf true)
  | "BETWEEN" => (readValues name payload).map (.between false)
  | "NOT_BETWEEN" => (readValues name payload).map (.between true)
  | "IS_NULL" => .ok (.isNull false (.ofDocument payload))
  | "IS_NOT_NULL" => .ok (.isNull true (.ofDocument payload))
  | other => .error (.unknownOperator other)

/-- Reads the members of an operator object. -/
def readOps : List (String × Document) → Except Fault (List Op)
  | [] => .ok []
  | (name, payload) :: rest => do
    let op ← Op.read name payload
    let ops ← readOps rest
    pure (op :: ops)

/-- Reads what is asked of a column. -/
def Test.read : Document → Except Fault Test
  | .list items => .ok (.oneOf (items.map Value.ofDocument))
  | .object members => (readOps members).map .ops
  | scalar => .ok (.value (.ofDocument scalar))

/-- Reads a caller's predicate: a text, or an object with its text and perhaps its parameters. -/
def readRaw : Document → Except Fault Entry
  | .text sql => .ok (.raw sql [])
  | .object members =>
    match Document.member? "sql" members with
    | some (.text sql) =>
      match Document.member? "params" members with
      | none | some .null => .ok (.raw sql [])
      | some params => (readValues "RAW" params).map (.raw sql)
    | _ => .error .rawConditionSql
  | _ => .error .rawConditionShape

/-- The connective that a key opens a group of. -/
def Connective.ofKey? : String → Option Connective
  | "AND" => some .and
  | "OR" => some .or
  | _ => none

mutual

/-- Reads a condition. -/
def readTree : Document → Except Fault Tree
  | .object members => readEntries members
  | _ => .error .conditionShape

/-- Reads the members of a condition object. -/
def readEntries : List (String × Document) → Except Fault (List Entry)
  | [] => .ok []
  | (key, value) :: rest => do
    let entry ← readEntry key value
    let entries ← readEntries rest
    pure (entry :: entries)

/-- Reads one member of a condition object. -/
def readEntry (key : String) : Document → Except Fault Entry
  | .list items =>
    match Connective.ofKey? key with
    | some connective =>
      if items.isEmpty then .error (.emptyArray key)
      else (readChildren items).map (.group connective)
    | none =>
      if key = "RAW" then readRaw (.list items)
      else (Test.read (.list items)).map (.column key)
  | value =>
    if (Connective.ofKey? key).isSome then .error (.groupShape key)
    else if key = "RAW" then readRaw value
    else (Test.read value).map (.column key)

/-- Reads the conditions of a group. -/
def readChildren : List Document → Except Fault (List Tree)
  | [] => .ok []
  | child :: rest => do
    let tree ← readTree child
    let trees ← readChildren rest
    pure (tree :: trees)

end

end Sqlwright.Condition
