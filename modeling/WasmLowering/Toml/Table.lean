/-
# Tables

The tables of a TOML document and the rules on extending them.  A table is
remembered by how it came about:

| form       | came about                                | may be extended by             |
|------------|-------------------------------------------|--------------------------------|
| `explicit` | by a header, or as the root               | its own lines, deeper headers  |
| `implicit` | on the way to a deeper header             | dotted keys, one header of its own, deeper headers |
| `dotted`   | on the way of a dotted key                | dotted keys, deeper headers    |
| `inline`   | in braces                                 | nothing                        |

A dotted key that adds a field to an implicit table makes it a dotted one.

No key is given twice, and a header or key on the way to another never passes
through anything but tables and the last table of an array of tables.
-/

import WasmLowering.Toml.Scalar

namespace WasmLowering
namespace Toml

/-- How a table came about. -/
inductive Form where
  | explicit
  | implicit
  | dotted
  | inline
  deriving DecidableEq, Repr

/-- A value of a document. -/
inductive Node where
  | scalar (s : Scalar)
  | array (items : List Node)
  | table (form : Form) (fields : List (String × Node))
  /-- An array of tables made by headers, each a list of fields. -/
  | tables (items : List (List (String × Node)))
  deriving Repr

/-- The fields of a table, in order. -/
abbrev Fields := List (String × Node)

namespace Fields

/-- Sets a field: in its place if it is there, else at the end. -/
def put (key : String) (value : Node) : Fields → Fields
  | [] => [(key, value)]
  | (k, v) :: rest => if k = key then (k, value) :: rest else (k, v) :: put key value rest

/-- Changes the table at the end of a path.  Tables that are missing on the way are made; `dotted`
tells the way of a dotted key from that of a header. -/
def descend (dotted : Bool) (change : Form → Fields → Option (Form × Fields)) :
    List String → Form → Fields → Option (Form × Fields)
  | [], form, fields => change form fields
  | key :: path, form, fields =>
    match fields.lookup key with
    | none => do
      let made := if dotted then Form.dotted else Form.implicit
      let (made, sub) ← descend dotted change path made []
      return (form, fields.put key (.table made sub))
    | some (.table found sub) => do
      guard (found ≠ .inline ∧ (!dotted ∨ found ≠ .explicit))
      let (found, sub) ← descend dotted change path found sub
      return (form, fields.put key (.table found sub))
    | some (.tables items) => do
      let last ← items.getLast?
      let (_, last) ← descend dotted change path .explicit last
      return (form, fields.put key (.tables (items.dropLast ++ [last])))
    | some _ => none

/-- Adds a field that is not there yet to a table that takes it: a dotted key ends in a table that
no header has opened, nor opens from then on. -/
def addNew (dotted : Bool) (key : String) (value : Node) (form : Form) (fields : Fields) :
    Option (Form × Fields) := do
  guard (!dotted ∨ form ≠ .explicit)
  guard (fields.lookup key).isNone
  return (if dotted then .dotted else form, fields ++ [(key, value)])

/-- Adds the value of a dotted key, given as its last part and the parts before it. -/
def addKey (path : List String) (key : String) (value : Node) (form : Form) (fields : Fields) :
    Option (Form × Fields) :=
  descend (!path.isEmpty) (addNew (!path.isEmpty) key value) path form fields

/-- Opens the table of a header. -/
def openTable (key : String) (form : Form) (fields : Fields) : Option (Form × Fields) :=
  match fields.lookup key with
  | none => some (form, fields.put key (.table .explicit []))
  | some (.table .implicit sub) => some (form, fields.put key (.table .explicit sub))
  | some _ => none

/-- Opens the next table of an array of tables. -/
def openNext (key : String) (form : Form) (fields : Fields) : Option (Form × Fields) :=
  match fields.lookup key with
  | none => some (form, fields.put key (.tables [[]]))
  | some (.tables items) => some (form, fields.put key (.tables (items ++ [[]])))
  | some _ => none

end Fields

end Toml
end WasmLowering
