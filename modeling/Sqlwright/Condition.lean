import Sqlwright.Value

/-!
# Condition trees

A condition is an ordered list of entries, joined by the connective of the group around it. An
entry tests a column, opens a group of nested conditions, or holds a predicate in the caller's own
words.
-/

namespace Sqlwright.Condition

/-- How a group joins its parts. -/
inductive Connective where
  | and
  | or
  deriving DecidableEq, Repr

/-- The word of a connective. -/
def Connective.word : Connective → String
  | .and => "AND"
  | .or => "OR"

/-- What a text is matched against. -/
inductive Pattern where
  /-- A pattern as it stands. -/
  | verbatim (pattern : String)
  | contains (part : String)
  | startsWith (part : String)
  | endsWith (part : String)
  deriving DecidableEq, Repr

/-- The comparisons of two values. -/
inductive Relation where
  | eq
  | ne
  | lt
  | le
  | gt
  | ge
  deriving DecidableEq, Repr

/-- The sign of a comparison. -/
def Relation.sign : Relation → String
  | .eq => "="
  | .ne => "!="
  | .lt => "<"
  | .le => "<="
  | .gt => ">"
  | .ge => ">="

/-- An operator with what it is given; most come plain and negated. -/
inductive Op where
  | compare (relation : Relation) (value : Value)
  | like (negated : Bool) (pattern : Pattern)
  | regexp (pattern : Value)
  | oneOf (negated : Bool) (values : List Value)
  /-- Two bounds are required. -/
  | between (negated : Bool) (bounds : List Value)
  /-- The flag has to be true. -/
  | isNull (negated : Bool) (flag : Value)
  deriving DecidableEq, Repr

/-- The key of an operator in a condition document. -/
def Op.key : Op → String
  | .compare relation _ => relation.sign
  | .like negated _ => if negated then "NOT_LIKE" else "LIKE"
  | .regexp _ => "REGEXP"
  | .oneOf negated _ => if negated then "NOT_IN" else "IN"
  | .between negated _ => if negated then "NOT_BETWEEN" else "BETWEEN"
  | .isNull negated _ => if negated then "IS_NOT_NULL" else "IS_NULL"

/-- What is asked of a column: to equal a value, to be one of several, or to pass every one of a
list of operators. -/
inductive Test where
  | value (v : Value)
  | oneOf (values : List Value)
  | ops (ops : List Op)
  deriving DecidableEq, Repr

/-- One entry of a condition. -/
inductive Entry where
  | column (name : String) (test : Test)
  | group (connective : Connective) (children : List (List Entry))
  /-- A predicate in the caller's own words, with the parameters of its placeholders. -/
  | raw (sql : String) (params : List Value)
  deriving Repr

/-- A condition. -/
abbrev Tree := List Entry

end Sqlwright.Condition
