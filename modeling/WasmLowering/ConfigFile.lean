/-
# Configuration files

`Config::from_toml_str` and `Config::load`.

Settings are read from the table `codegen` of a TOML document:

| key                     | setting     | value                    |
|-------------------------|-------------|--------------------------|
| `debug_instrumentation` | `traced`    | a truth value            |
| `validate_output`       | `validated` | a truth value            |
| `memory_min_pages`      | `minPages`  | an integer below `2^32`  |

A setting that is not given keeps its default, and keys that are not settings
are left alone, as long as their numbers can be represented.  The table may also
be given as an array of the settings in the order above, in which later ones may
be missing; a date has no settings in it.
-/

import WasmLowering.Bytes
import WasmLowering.Config
import WasmLowering.Fault
import WasmLowering.Toml.Document

namespace WasmLowering
namespace Config

open Toml

mutual

/-- Whether a value that is left alone can be represented: its integers in 128 bits and its floats
in 64.  What is only taken for a number cannot. -/
def isTolerated : Node → Bool
  | .scalar (.integer n) => -0x80000000000000000000000000000000 ≤ n && n < 0x100000000000000000000000000000000
  | .scalar (.float fits) => fits
  | .scalar .malformed => false
  | .scalar _ => true
  | .array items => areTolerated items
  | .table _ fields => fieldsTolerated fields
  | .tables items => tablesTolerated items

/-- Whether all items of an array can be represented. -/
def areTolerated : List Node → Bool
  | [] => true
  | v :: vs => isTolerated v && areTolerated vs

/-- Whether the value of a field can be represented. -/
def fieldTolerated : String × Node → Bool
  | (_, v) => isTolerated v

/-- Whether all fields of a table can be represented. -/
def fieldsTolerated : List (String × Node) → Bool
  | [] => true
  | f :: fs => fieldTolerated f && fieldsTolerated fs

/-- Whether all tables of an array of tables can be represented. -/
def tablesTolerated : List (List (String × Node)) → Bool
  | [] => true
  | t :: ts => fieldsTolerated t && tablesTolerated ts

end

/-- A truth value. -/
def bool? : Node → Option Bool
  | .scalar (.boolean b) => some b
  | _ => none

/-- A number of pages. -/
def pages? : Node → Option Nat
  | .scalar (.integer n) => if 0 ≤ n ∧ n < 0x100000000 then some n.toNat else none
  | _ => none

/-- Takes a setting from a field of the table. -/
def setField (c : Config) (key : String) (value : Node) : Option Config :=
  match key with
  | "debug_instrumentation" => (bool? value).map fun b => { c with traced := b }
  | "validate_output" => (bool? value).map fun b => { c with validated := b }
  | "memory_min_pages" => (pages? value).map fun n => { c with minPages := n }
  | _ => if isTolerated value then some c else none

/-- The settings in the order in which an array gives them. -/
def keys : List String := ["debug_instrumentation", "validate_output", "memory_min_pages"]

/-- The settings that the value of `codegen` gives. -/
def ofNode? : Node → Option Config
  | .table _ fields => fields.foldlM (fun c f => c.setField f.1 f.2) default
  | .array items => (keys.zip items).foldlM (fun c f => c.setField f.1 f.2) default
  | .tables items =>
    (keys.zip items).foldlM (fun c f => c.setField f.1 (.table .explicit f.2)) default
  | .scalar .moment => some default
  | .scalar _ => none

/-- The settings that the fields of a document give. -/
def ofFields? (fields : Fields) : Option Config :=
  fields.foldlM (fun c f =>
    if f.1 = "codegen" then ofNode? f.2 else if isTolerated f.2 then some c else none) default

/-- The settings of a configuration.  The memory has a page for the highwater mark. -/
def ofToml (text : String) : Except Fault Config :=
  match (Document.parse? text).bind ofFields? with
  | none => .error .configSyntax
  | some c => if c.minPages = 0 then .error .configNoPages else .ok c

/-- The text of a file with given bytes. -/
def decodeText (bytes : Bytes) : Except ReadFailure String :=
  match String.fromUTF8? ⟨bytes.toArray⟩ with
  | some text => .ok text
  | none => .error .notUtf8

/-- The settings of the configuration file at a path, given what reading its bytes came to. -/
def load (path : String) (file : Except ReadFailure Bytes) : Except Fault Config :=
  match file.bind decodeText with
  | .error failure => .error (.configUnreadable path failure)
  | .ok text => ofToml text

end Config
end WasmLowering
