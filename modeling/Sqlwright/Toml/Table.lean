import Sqlwright.Toml

/-!
# Building TOML tables

The tables of a document while it is read. A table is open for more keys depending on how it came
about: by a header of its own, by the headers of tables below it, or by dotted keys. A value, and
with it every inline table and plain list, is closed.
-/

namespace Sqlwright.Toml

/-- How a table came about. -/
inductive Origin where
  /-- By its own header. -/
  | header
  /-- By the header of a table below it. -/
  | implied
  /-- By a dotted key. -/
  | dotted
  deriving DecidableEq, Repr

/-- What stands under a key while a document is read. -/
inductive Node where
  | leaf (value : Toml)
  | branch (origin : Origin) (members : List (String × Node))
  /-- The tables under a repeated header, the newest first. -/
  | series (tables : List (List (String × Node)))

/-- The members of a table while a document is read. -/
abbrev Members := List (String × Node)

namespace Members

/-- Replaces what stands under a key. -/
def replace (key : String) (n : Node) (ms : Members) : Members :=
  ms.map fun m => if m.1 = key then (key, n) else m

/-- Changes the table at a path of keys that are there; of a series the newest table. -/
def within (f : Members → Option Members) : List String → Members → Option Members
  | [], ms => f ms
  | key :: path, ms =>
    match ms.lookup key with
    | some (.branch origin sub) =>
      (within f path sub).map fun sub => ms.replace key (.branch origin sub)
    | some (.series (t :: ts)) =>
      (within f path t).map fun t => ms.replace key (.series (t :: ts))
    | _ => none

/-- Puts a value under a dotted key, the last part of which goes into a table that dotted keys have
made. On the way there it may pass tables that headers below them have made, and the newest table
of a series, but none with a header of its own. -/
def assign (value : Toml) : List String → Members → Option Members
  | [], _ => none
  | [key], ms => if (ms.lookup key).isSome then none else some (ms ++ [(key, .leaf value)])
  | key :: path, ms =>
    match ms.lookup key with
    | none => (assign value path []).map fun sub => ms ++ [(key, .branch .dotted sub)]
    | some (.branch .dotted sub) =>
      (assign value path sub).map fun sub => ms.replace key (.branch .dotted sub)
    | some (.branch .implied sub) =>
      if path.length = 1 then none
      else (assign value path sub).map fun sub => ms.replace key (.branch .implied sub)
    | some (.series (t :: ts)) =>
      if path.length = 1 then none
      else (assign value path t).map fun t => ms.replace key (.series (t :: ts))
    | some _ => none

/-- Does something to the table that holds the last key of a header, making the tables above it. -/
def atHeader (f : String → Members → Option Members) : List String → Members → Option Members
  | [], _ => none
  | [key], ms => f key ms
  | key :: path, ms =>
    match ms.lookup key with
    | none => (atHeader f path []).map fun sub => ms ++ [(key, .branch .implied sub)]
    | some (.branch origin sub) =>
      (atHeader f path sub).map fun sub => ms.replace key (.branch origin sub)
    | some (.series (t :: ts)) =>
      (atHeader f path t).map fun t => ms.replace key (.series (t :: ts))
    | some _ => none

/-- Opens a table by its header. -/
def openTable (key : String) (ms : Members) : Option Members :=
  match ms.lookup key with
  | none => some (ms ++ [(key, .branch .header [])])
  | some (.branch .implied sub) => some (ms.replace key (.branch .header sub))
  | some _ => none

/-- Opens one more table of a series. -/
def openSeries (key : String) (ms : Members) : Option Members :=
  match ms.lookup key with
  | none => some (ms ++ [(key, .series [[]])])
  | some (.series ts) => some (ms.replace key (.series ([] :: ts)))
  | some _ => none

end Members

mutual

/-- The value that stands under a key once the document is read. -/
def Node.value : Node → Toml
  | .leaf v => v
  | .branch _ ms => .table (memberValues ms)
  | .series ts => .list (seriesValues ts).reverse

/-- The values of a table's members. -/
def memberValues : List (String × Node) → List (String × Toml)
  | [] => []
  | (key, n) :: rest => (key, n.value) :: memberValues rest

/-- The tables of a series. -/
def seriesValues : List (List (String × Node)) → List Toml
  | [] => []
  | ms :: rest => .table (memberValues ms) :: seriesValues rest

end

end Sqlwright.Toml
