import Sqlwright.Condition
import Sqlwright.Fault
import Sqlwright.Fragment
import Sqlwright.Name

/-!
# The predicate of a condition

A condition becomes the text of a predicate with its parameters. Column names stand in the text,
cut down to their safe alphabet; every value is bound. The parts of a node are joined by the
connective around it, the conditions of a group stand in parentheses, and a caller's predicate does
so whenever it has neighbours. Parts that come out empty are left out.
-/

namespace Sqlwright.Condition

/-- The text between two parts of a group. -/
def Connective.separator (c : Connective) : String := " " ++ c.word ++ " "

/-- The pattern that is bound. A part of a text has to hold something. -/
def Pattern.text (keyword : String) : Pattern → Except Fault String
  | .verbatim p => .ok p
  | .contains s => if s = "" then .error (.patternShape keyword) else .ok ("%" ++ s ++ "%")
  | .startsWith s => if s = "" then .error (.patternShape keyword) else .ok (s ++ "%")
  | .endsWith s => if s = "" then .error (.patternShape keyword) else .ok ("%" ++ s)

/-- A column's membership in a list, which may not be empty. `label` names the operator in a
fault. -/
def membership (column keyword label : String) (values : List Value) : Except Fault Fragment :=
  if values.isEmpty then .error (.emptyArray label)
  else .ok ⟨column ++ " " ++ keyword ++ " (" ++ commaSeparated values.length "?" ++ ")", values⟩

/-- The predicate of one operator on a column. -/
def Op.fragment (column : String) (op : Op) : Except Fault Fragment :=
  match op with
  | .compare relation v => .ok ⟨column ++ " " ++ relation.sign ++ " ?", [v]⟩
  | .like negated pattern => do
    let keyword := if negated then "NOT LIKE" else "LIKE"
    let text ← pattern.text keyword
    pure ⟨column ++ " " ++ keyword ++ " ?", [.text text]⟩
  | .regexp v =>
    match v with
    | .text s =>
      if s = "" then .error .regexpShape else .ok ⟨column ++ " REGEXP ?", [.text s]⟩
    | _ => .error .regexpShape
  | .oneOf negated values =>
    membership column (if negated then "NOT IN" else "IN") op.key values
  | .between negated bounds =>
    match bounds with
    | [low, high] =>
      .ok ⟨column ++ (if negated then " NOT BETWEEN ? AND ?" else " BETWEEN ? AND ?"),
        [low, high]⟩
    | _ => .error (.boundCount op.key bounds.length)
  | .isNull negated flag =>
    if flag = .bool true then
      .ok ⟨column ++ (if negated then " IS NOT NULL" else " IS NULL"), []⟩
    else .error (.flagNotTrue op.key)

/-- The predicates of several operators on a column. -/
def opFragments (column : String) : List Op → Except Fault (List Fragment)
  | [] => .ok []
  | op :: ops => do
    let f ← op.fragment column
    let fs ← opFragments column ops
    pure (f :: fs)

/-- The predicates of what is asked of a column. -/
def Test.fragments (column : String) : Test → Except Fault (List Fragment)
  | .value v => .ok [⟨column ++ " = ?", [v]⟩]
  | .oneOf values => (membership column "IN" "IN" values).map fun f => [f]
  | .ops operators => opFragments column operators

/-- The predicates of a column entry, whose name has to keep at least one character. -/
def columnFragments (name : String) (test : Test) : Except Fault (List Fragment) :=
  let column := Name.sanitize name
  if column = "" then .error (.columnName name) else test.fragments column

/-- A part of a node, and whether it is the caller's own text. -/
structure Part where
  fragment : Fragment
  raw : Bool

/-- The text of a part among others: a caller's own text is put in parentheses. -/
def Part.text (crowded : Bool) (p : Part) : String :=
  if p.raw && crowded then "(" ++ p.fragment.sql ++ ")" else p.fragment.sql

/-- The parts of a node that say something. -/
def spoken (parts : List Part) : List Part := parts.filter fun p => !p.fragment.isBlank

/-- Joins the parts of a node. Parameters of every part are kept. -/
def combine (connective : Connective) (parts : List Part) : Fragment :=
  let said := spoken parts
  ⟨connective.separator.intercalate (said.map (Part.text (decide (1 < said.length)))),
    parts.flatMap fun p => p.fragment.params⟩

/-- Joins the conditions of a group, each in parentheses. -/
def combineChildren (connective : Connective) (children : List Fragment) : Fragment :=
  let said := children.filter fun f => !f.isBlank
  ⟨connective.separator.intercalate (said.map fun f => "(" ++ f.sql ++ ")"),
    children.flatMap Fragment.params⟩

mutual

/-- The parts that an entry adds to its node. -/
def Entry.parts : Entry → Except Fault (List Part)
  | .column name test => (columnFragments name test).map (·.map (⟨·, false⟩))
  | .group connective children =>
    if children.isEmpty then .error (.emptyArray connective.word)
    else do
      let fs ← childPredicates connective children
      pure [⟨combineChildren connective fs, false⟩]
  | .raw sql params => .ok [⟨⟨Text.trim sql, params⟩, true⟩]

/-- The parts of a node. -/
def nodeParts : List Entry → Except Fault (List Part)
  | [] => .ok []
  | entry :: rest => do
    let ps ← entry.parts
    let qs ← nodeParts rest
    pure (ps ++ qs)

/-- The predicates of the conditions of a group. -/
def childPredicates (connective : Connective) : List (List Entry) → Except Fault (List Fragment)
  | [] => .ok []
  | child :: rest => do
    let parts ← nodeParts child
    let fs ← childPredicates connective rest
    pure (combine connective parts :: fs)

end

/-- The predicate of a condition whose entries are joined by a connective. -/
def predicate (connective : Connective) (tree : Tree) : Except Fault Fragment := do
  let parts ← nodeParts tree
  pure (combine connective parts)

end Sqlwright.Condition
