import Sqlwright.Value

/-!
# Fragments

A piece of a statement: its text and the parameters of its placeholders, from left to right.
-/

namespace Sqlwright

/-- Text together with its parameters. -/
structure Fragment where
  sql : String
  params : List Value
  deriving DecidableEq, Repr

namespace Fragment

/-- The empty fragment. -/
def empty : Fragment := ⟨"", []⟩

instance : Inhabited Fragment := ⟨empty⟩

/-- Whether a fragment adds no text. -/
def isBlank (f : Fragment) : Bool := f.sql == ""

/-- Fragments one after the other, with a text between each two. -/
def join (separator : String) (fs : List Fragment) : Fragment :=
  ⟨separator.intercalate (fs.map sql), fs.flatMap params⟩

@[simp] theorem sql_join (separator : String) (fs : List Fragment) :
    (join separator fs).sql = separator.intercalate (fs.map sql) := rfl

@[simp] theorem params_join (separator : String) (fs : List Fragment) :
    (join separator fs).params = fs.flatMap params := rfl

/-- A fragment with text around it. -/
def enclose (before after : String) (f : Fragment) : Fragment :=
  ⟨before ++ f.sql ++ after, f.params⟩

@[simp] theorem sql_enclose (before after : String) (f : Fragment) :
    (f.enclose before after).sql = before ++ f.sql ++ after := rfl

@[simp] theorem params_enclose (before after : String) (f : Fragment) :
    (f.enclose before after).params = f.params := rfl

end Fragment

/-- The same text several times, with commas between. -/
def commaSeparated (count : Nat) (text : String) : String :=
  ", ".intercalate (List.replicate count text)

end Sqlwright
