import Sqlwright.Fault
import Sqlwright.Table.Shape
import Sqlwright.Text.Blank
import Sqlwright.Toml.Reader

/-!
# Descriptions of tables

A table is described by its name, its primary key, its columns and the names of the columns that
most tables share. Descriptions are read from documents and from TOML, where a file can hold
several.
-/

namespace Sqlwright

/-- The names of the columns that most tables share. -/
structure CentralFields where
  ctime : String := "ctime"
  utime : String := "utime"
  isActive : String := "is_active"
  isDeleted : String := "is_deleted"
  status : String := "status"
  deriving DecidableEq, Repr

/-- The description of a table. -/
structure TableConfig where
  name : String
  primaryKey : String
  columns : List String
  central : CentralFields := {}
  deriving DecidableEq, Repr

namespace CentralFields

/-- The keys of the shared columns in a description. -/
def keys : List String :=
  ["ctime_field", "utime_field", "is_active_field", "is_deleted_field", "status_field"]

/-- A text that may be missing. -/
def textOr (standard : String) : Option Shape → Option String
  | none => some standard
  | some s => s.text?

/-- Reads the names of the shared columns; a missing one has its standard name. -/
def ofShape? (s : Shape) : Option CentralFields := do
  let member ← s.members? keys
  let standard : CentralFields := {}
  pure {
    ctime := ← textOr standard.ctime (member "ctime_field")
    utime := ← textOr standard.utime (member "utime_field")
    isActive := ← textOr standard.isActive (member "is_active_field")
    isDeleted := ← textOr standard.isDeleted (member "is_deleted_field")
    status := ← textOr standard.status (member "status_field") }

end CentralFields

namespace TableConfig

/-- The keys of a description. -/
def keys : List String := ["table_name", "primary_key", "columns", "central_fields"]

/-- Reads a description; only the shared columns may be missing. -/
def ofShape? (s : Shape) : Option TableConfig := do
  let member ← s.members? keys
  let name ← (← member "table_name").text?
  let primaryKey ← (← member "primary_key").text?
  let columns ← (← member "columns").texts?
  let central ← match member "central_fields" with
    | none => some {}
    | some fields => CentralFields.ofShape? fields
  pure ⟨name, primaryKey, columns, central⟩

/-- Reads a description from a document. -/
def ofDocument? (d : Document) : Option TableConfig := ofShape? d.shape

/-- Reads a description from TOML. -/
def ofToml (text : String) : Except Fault TableConfig :=
  match (Toml.read? text).bind fun members => ofShape? (Toml.table members).shape with
  | some config => .ok config
  | none => .error .descriptionMalformed

/-- Why a description cannot be used: the name and the key may not be blank, and there has to be a
column. -/
def fault? (c : TableConfig) : Option Fault :=
  if Text.isBlankText c.name then some .describedTableRequired
  else if Text.isBlankText c.primaryKey then some (.keyRequired c.name)
  else if c.columns.isEmpty then some (.columnsRequired c.name)
  else none

end TableConfig

/-- The descriptions of a file. -/
structure ConfigFile where
  tables : List TableConfig
  deriving DecidableEq, Repr

namespace ConfigFile

/-- Reads the descriptions under the key `tables`, which may be missing. -/
def ofShape? (s : Shape) : Option ConfigFile := do
  let member ← s.members? ["tables"]
  match member "tables" with
  | none => some ⟨[]⟩
  | some (.list _ items) => (items.mapM TableConfig.ofShape?).map ConfigFile.mk
  | some _ => none

/-- Reads a file's text. -/
def ofToml (text : String) : Except Fault ConfigFile :=
  match (Toml.read? text).bind fun members => ofShape? (Toml.table members).shape with
  | some file => .ok file
  | none => .error .descriptionMalformed

/-- Reads the file at a path, for a way to get at the text of files; failing that, the reason is
part of the fault. -/
def load (fileText : String → Except String String) (path : String) : Except Fault ConfigFile :=
  match fileText path with
  | .ok text => ofToml text
  | .error reason => .error (.fileUnreadable path reason)

/-- The first description of a table. -/
def table? (file : ConfigFile) (name : String) : Option TableConfig :=
  file.tables.find? fun t => t.name == name

end ConfigFile

end Sqlwright
