import Sqlwright.Text.Display

/-!
# Faults

Why a call is refused. A `Fault` is a cause; its kind and its wording are functions of the cause.
The last constructor is a fault that an executor, or another part of the caller's program, reports
in its own words.
-/

namespace Sqlwright

namespace Fault

/-- The kinds that callers tell faults apart by. -/
inductive Kind where
  /-- An operation on a table was given none. -/
  | missingTableName
  /-- A payload is empty where one is required. -/
  | emptyPayload
  /-- A list or group of a condition is empty. -/
  | emptyArrayCondition
  /-- A range without exactly two bounds. -/
  | invalidArity
  /-- An operator that the condition language does not have. -/
  | unsupportedOperator
  /-- Markers that exclude each other were given together. -/
  | conflictingSentinel
  /-- A malformed description. -/
  | validation
  /-- A missing executor or an unknown connection. -/
  | configuration
  /-- A table description that could not be read. -/
  | config
  /-- A failure that an executor reported. -/
  | execution
  deriving DecidableEq, Repr

namespace Kind

/-- The words in front of a fault's detail. -/
def heading : Kind → String
  | .missingTableName => "Missing table name"
  | .emptyPayload => "Empty payload"
  | .emptyArrayCondition => "Empty array condition"
  | .invalidArity => "Invalid arity"
  | .unsupportedOperator => "Unsupported operator"
  | .conflictingSentinel => "Conflicting sentinel"
  | .validation => "Validation error"
  | .configuration => "Configuration error"
  | .config => "Config parse error"
  | .execution => "Execution error"

end Kind

/-- The calls that need the name of a table. -/
inductive TableUse where
  | update
  | insert
  | delete
  | source
  | join
  deriving DecidableEq, Repr

/-- The word for a call that needs the name of a table. -/
def TableUse.label : TableUse → String
  | .update => "update"
  | .insert => "insert"
  | .delete => "delete"
  | .source => "from"
  | .join => "join"

end Fault

/-- The cause of a refusal. -/
inductive Fault where
  | tableRequired (use : Fault.TableUse)
  -- conditions
  | conditionShape
  | groupShape (label : String)
  | emptyArray (label : String)
  | listShape (label : String)
  | rawConditionShape
  | rawConditionSql
  | patternShape (label : String)
  | patternConflict (label : String)
  | unknownOperator (name : String)
  | boundCount (label : String) (count : Nat)
  | flagNotTrue (label : String)
  | regexpShape
  | columnName (column : String)
  | unfiltered
  -- select lists
  | fieldNesting
  | fieldShape
  | fieldAlias (key : String)
  | rawFieldShape
  | rawFieldSql
  | rawFieldAlias
  | rawFieldParams
  -- assignments
  | assignmentsShape
  | deltaConflict (column : String)
  | noAssignments
  | noUpdate
  | noUpdateBesideKey
  -- rows
  | rowsShape
  | rowShape
  | noRows
  | rowMismatch (row : Nat)
  -- tables with a description
  | describedTableRequired
  | keyRequired (table : String)
  | columnsRequired (table : String)
  | conditionRequired (table operation : String)
  | dataRequired (table operation : String)
  | patchFieldRequired (table : String)
  -- connections and files
  | executorMissing
  | connectionUnknown (name : String)
  | fileUnreadable (path reason : String)
  | descriptionMalformed
  -- others' faults
  | reported (kind : Fault.Kind) (detail : String)
  deriving DecidableEq, Repr

namespace Fault

/-- The kind of a fault. -/
def kind : Fault → Kind
  | .tableRequired _ | .describedTableRequired => .missingTableName
  | .emptyArray _ => .emptyArrayCondition
  | .boundCount _ _ => .invalidArity
  | .unknownOperator _ => .unsupportedOperator
  | .patternConflict _ | .deltaConflict _ => .conflictingSentinel
  | .unfiltered | .noAssignments | .noUpdate | .noUpdateBesideKey | .noRows
  | .conditionRequired _ _ | .dataRequired _ _ => .emptyPayload
  | .executorMissing | .connectionUnknown _ => .configuration
  | .fileUnreadable _ _ | .descriptionMalformed => .config
  | .reported kind _ => kind
  | .conditionShape | .groupShape _ | .listShape _ | .rawConditionShape | .rawConditionSql
  | .patternShape _ | .flagNotTrue _ | .regexpShape | .columnName _ | .fieldNesting
  | .fieldShape | .fieldAlias _ | .rawFieldShape | .rawFieldSql | .rawFieldAlias
  | .rawFieldParams | .assignmentsShape | .rowsShape | .rowShape | .rowMismatch _
  | .keyRequired _ | .columnsRequired _ | .patchFieldRequired _ => .validation

/-- A detail of the statement builder: the part at work and what it says. -/
def building (part message : String) : String := "[SQLBuilder] :: " ++ part ++ " :: " ++ message

/-- A detail of the condition reader and compiler. -/
def inCondition (message : String) : String := building "processConditions" message

/-- A detail about a described table. -/
def ofTable (table message : String) : String := "[Table :: " ++ table ++ "] :: " ++ message

/-- What a fault says behind the heading of its kind. -/
def detail : Fault → String
  | .tableRequired use => building use.label "Table name is required"
  | .conditionShape => inCondition "condition must be an object"
  | .groupShape label => inCondition (label ++ " :: condition must be a non-empty array")
  | .emptyArray label => inCondition (label ++ " :: condition must be a non-empty array")
  | .listShape label => inCondition (label ++ " :: condition must be an array")
  | .rawConditionShape =>
    inCondition "RAW :: condition must be a string or \x7bsql, params\x7d"
  | .rawConditionSql => inCondition "RAW :: 'sql' must be a string"
  | .patternShape label => inCondition (label ++ " :: Invalid pattern type")
  | .patternConflict label =>
    inCondition (label
      ++ " :: Only one of 'contains', 'startsWith', or 'endsWith' can be provided")
  | .unknownOperator name => inCondition ("Unsupported operator: " ++ name)
  | .boundCount label count =>
    inCondition (label ++ " :: condition must be an array of exactly 2 values, got "
      ++ toString count)
  | .flagNotTrue label => inCondition (label ++ " :: value must be true")
  | .regexpShape => inCondition "REGEXP :: value must be a non-empty string"
  | .columnName column => inCondition ("Invalid column name: " ++ Text.display column)
  | .unfiltered => building "where" "Condition cannot be empty for UPDATE or DELETE"
  | .fieldNesting => building "processFields" "nested arrays are not allowed"
  | .fieldShape => building "processFields" "expected a string or an object"
  | .fieldAlias key => building "processFields" ("alias for " ++ key ++ " must be a string")
  | .rawFieldShape => building "processFields" "RAW :: expected a string or an object"
  | .rawFieldSql => building "processFields" "RAW :: 'sql' must be a string"
  | .rawFieldAlias => building "processFields" "RAW :: 'alias' must be a string"
  | .rawFieldParams => building "processFields" "RAW :: 'params' must be an array"
  | .assignmentsShape => building "Set" "Values must be an object"
  | .deltaConflict column =>
    building "Set" ("Both increment and decrement provided for field " ++ column)
  | .noAssignments => building "Set" "Values cannot be empty"
  | .noUpdate => building "Update" "Data cannot be empty"
  | .noUpdateBesideKey =>
    building "Update" "Data cannot be empty after removing the primary key"
  | .rowsShape => building "Insert" "Values must be an object or an array of objects"
  | .rowShape => building "Insert" "Each row must be an object"
  | .noRows => building "Insert" "Values cannot be empty"
  | .rowMismatch row =>
    building "Insert" ("Row " ++ toString row ++ " does not match the columns of the first row")
  | .describedTableRequired => ofTable "" "Table name is required"
  | .keyRequired table => ofTable table "Primary key is required"
  | .columnsRequired table => ofTable table "Table columns are required"
  | .conditionRequired table operation =>
    ofTable table (operation ++ " :: Where condition cannot be empty")
  | .dataRequired table operation => ofTable table (operation ++ " :: Data cannot be empty")
  | .patchFieldRequired table =>
    ofTable table "PatchSingleField :: Patch field is required"
  | .executorMissing => building "executeQuery" "No query executor configured"
  | .connectionUnknown name =>
    "Database instance <" ++ name ++ "> not found. Register it first."
  | .fileUnreadable path reason => "failed to read config file " ++ path ++ ": " ++ reason
  | .descriptionMalformed => "not a table description"
  | .reported _ detail => detail

/-- The whole text of a fault. -/
def message (f : Fault) : String := f.kind.heading ++ ": " ++ f.detail

/-- Whether the fault was found by the library itself, and not by the executor. -/
def isBuildFault (f : Fault) : Bool := decide (f.kind ≠ .execution)

end Fault

end Sqlwright
