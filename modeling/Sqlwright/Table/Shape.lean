import Sqlwright.Document
import Sqlwright.Toml

/-!
# Shapes of descriptions

A description of a table can be written in more than one notation. What its reader looks at is
common to all: texts, lists, records of named members, and anything else. A list can stand for a
record, with the members in their fixed order.
-/

namespace Sqlwright

/-- What a description is made of. -/
inductive Shape where
  | text (s : String)
  /-- A list; the flag says whether one that stands for a record may be longer than the record. -/
  | list (extensible : Bool) (items : List Shape)
  | record (members : List (String × Shape))
  /-- What cannot even be looked at. -/
  | unreadable
  | other
  deriving Repr

mutual

/-- The shape of a document. A list that stands for a record may not be longer. -/
def Document.shape : Document → Shape
  | .text s => .text s
  | .list items => .list false (documentShapes items)
  | .object members => .record (memberShapes members)
  | _ => .other

/-- The shapes of documents. -/
def documentShapes : List Document → List Shape
  | [] => []
  | d :: ds => d.shape :: documentShapes ds

/-- The shapes of an object's members. -/
def memberShapes : List (String × Document) → List (String × Shape)
  | [] => []
  | (key, d) :: ds => (key, d.shape) :: memberShapes ds

end

mutual

/-- The shape of a TOML value. A list that stands for a record may be longer, and a date is a
record without named members. -/
def Toml.shape : Toml → Shape
  | .text s => .text s
  | .list items => .list true (tomlShapes items)
  | .table members => .record (tomlMemberShapes members)
  | .moment _ => .record []
  | .unreadable => .unreadable
  | _ => .other

/-- The shapes of TOML values. -/
def tomlShapes : List Toml → List Shape
  | [] => []
  | v :: vs => v.shape :: tomlShapes vs

/-- The shapes of a TOML table's members. -/
def tomlMemberShapes : List (String × Toml) → List (String × Shape)
  | [] => []
  | (key, v) :: vs => (key, v.shape) :: tomlMemberShapes vs

end

mutual

/-- Whether all of a shape can be looked at. -/
def Shape.isReadable : Shape → Bool
  | .unreadable => false
  | .list _ items => areReadable items
  | .record members => membersAreReadable members
  | .text _ | .other => true

/-- Whether all of some shapes can be looked at. -/
def areReadable : List Shape → Bool
  | [] => true
  | s :: rest => s.isReadable && areReadable rest

/-- Whether all of a record's members can be looked at. -/
def membersAreReadable : List (String × Shape) → Bool
  | [] => true
  | (_, s) :: rest => s.isReadable && membersAreReadable rest

end

namespace Shape

/-- The content of a text. -/
def text? : Shape → Option String
  | .text s => some s
  | _ => none

/-- The texts of a list of texts. -/
def texts? : Shape → Option (List String)
  | .list _ items => items.mapM text?
  | _ => none

/-- The members of a record under some names, each if it is there. The members under other names
are looked at too, but what a list holds beyond the record is not. -/
def members? (names : List String) : Shape → Option (String → Option Shape)
  | .record members =>
    if members.all fun m => names.contains m.1 || m.2.isReadable then
      some fun name => members.lookup name
    else none
  | .list extensible items =>
    if extensible || decide (items.length ≤ names.length) then
      some fun name => (names.zip items).lookup name
    else none
  | _ => none

end Shape

end Sqlwright
