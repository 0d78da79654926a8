import Sqlwright.Document
import Sqlwright.Fault
import Sqlwright.Fragment
import Sqlwright.Name

/-!
# Select lists

What a SELECT returns: columns, columns under a label (the name behind `AS`), wildcards, and
expressions in the caller's own words. A field that was already listed is left out; an empty list
selects everything.
-/

namespace Sqlwright

/-- One entry of a select list. -/
inductive Field where
  /-- Every column. -/
  | star
  /-- A column, or the wildcard of one table. -/
  | column (name : String)
  | aliased (column label : String)
  /-- An expression in the caller's own words, with the parameters of its placeholders. -/
  | raw (sql : String) (label : Option String) (params : List Value)
  deriving DecidableEq, Repr

/-- A select list. -/
abbrev SelectList := List Field

namespace Field

/-- The field of a name; a lone star is every column. -/
def named (name : String) : Field := if name = "*" then .star else .column name

/-- Gives a label to an expression; other fields stay as they are. -/
def withLabel (label : String) : Field → Field
  | .raw sql _ params => .raw sql (some label) params
  | f => f

/-- Gives parameters to an expression; other fields stay as they are. -/
def withParams (params : List Value) : Field → Field
  | .raw sql label _ => .raw sql label params
  | f => f

/-- The text by which a repeated field is recognised. -/
def identity : Field → String
  | .star => "*"
  | .column name => "c:" ++ name
  | .aliased name label => "a:" ++ name ++ ":" ++ label
  | .raw sql (some label) _ => "r:" ++ sql ++ " AS " ++ label
  | .raw sql none _ => "r:" ++ sql

/-- The text and parameters of a field. -/
def fragment : Field → Fragment
  | .star => ⟨"*", []⟩
  | .column name =>
    if Name.isDottedWildcard name then ⟨name, []⟩ else ⟨"??", [.text name]⟩
  | .aliased name label => ⟨"?? AS ??", [.text name, .text label]⟩
  | .raw sql (some label) params => ⟨sql ++ " AS " ++ Name.quote label, params⟩
  | .raw sql none params => ⟨sql, params⟩

/-- Reads an expression: a text, or an object with its text and perhaps label and parameters. -/
def readRaw : Document → Except Fault Field
  | .text sql => .ok (.raw sql none [])
  | .object members =>
    match Document.member? "sql" members with
    | some (.text sql) => do
      let label ← match Document.member? "alias" members with
        | none | some .null => .ok none
        | some (.text label) => .ok (some label)
        | some _ => .error .rawFieldAlias
      let params ← match Document.member? "params" members with
        | none | some .null => .ok []
        | some (.list items) => .ok (items.map Value.ofDocument)
        | some _ => .error .rawFieldParams
      pure (.raw sql label params)
    | _ => .error .rawFieldSql
  | _ => .error .rawFieldShape

/-- Reads one member of a field object: an expression, or a column with its label. -/
def readMember (key : String) (value : Document) : Except Fault Field :=
  if key = "RAW" then readRaw value
  else match value with
    | .text label => .ok (.aliased key label)
    | _ => .error (.fieldAlias key)

end Field

namespace SelectList

/-- Reads the members of a field object. -/
def readMembers : List (String × Document) → Except Fault SelectList
  | [] => .ok []
  | (key, value) :: rest => do
    let field ← Field.readMember key value
    let fields ← readMembers rest
    pure (field :: fields)

/-- Reads a name or an object of fields. -/
def readItem : Document → Except Fault SelectList
  | .text name => .ok [.named name]
  | .object members => readMembers members
  | .list _ => .error .fieldNesting
  | _ => .error .fieldShape

/-- Reads the items of a list. -/
def readItems : List Document → Except Fault SelectList
  | [] => .ok []
  | item :: rest => do
    let fields ← readItem item
    let others ← readItems rest
    pure (fields ++ others)

/-- Reads a select list: a name, an object of fields, or a list of these. -/
def read : Document → Except Fault SelectList
  | .list items => readItems items
  | d => readItem d

/-- The fields whose identity is not among the ones seen, each once, in first-seen order. -/
def distinctFrom (seen : List String) : SelectList → SelectList
  | [] => []
  | f :: fs =>
    if f.identity ∈ seen then distinctFrom seen fs
    else f :: distinctFrom (f.identity :: seen) fs

/-- The list without repeated fields. -/
def distinct (fields : SelectList) : SelectList := distinctFrom [] fields

/-- The head of a SELECT. -/
def fragment (fields : SelectList) : Fragment :=
  match distinct fields with
  | [] => ⟨"SELECT *", []⟩
  | fs => (Fragment.join ", " (fs.map Field.fragment)).enclose "SELECT " ""

end SelectList

end Sqlwright
