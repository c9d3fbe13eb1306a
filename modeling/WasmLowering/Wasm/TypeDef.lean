/-
# Definitions of types

A module may define types of functions, structures and arrays, and name a type
above each.  Continuations, shared types and types that describe others can be
written but are not supported.
-/

import WasmLowering.Wasm.ValType

namespace WasmLowering
namespace Wasm

/-- How a word is kept in a field: whole, or cut to some bytes. -/
inductive Storage where
  | byte
  | half
  | whole (type : ValType)
  deriving DecidableEq, Repr

namespace Storage

/-- The type of the word that is read from a field or written to it. -/
def unpack : Storage → ValType
  | whole t => t
  | _ => .i32

/-- Whether words are cut to be kept. -/
def isPacked : Storage → Bool
  | whole _ => false
  | _ => true

/-- The type of the references in a field, if it holds references. -/
def ref? : Storage → Option RefType
  | whole (.ref r) => some r
  | _ => none

/-- The name of a way to keep words. -/
def text : Storage → String
  | byte => "i8"
  | half => "i16"
  | whole t => t.fullText

/-- Replaces the numbers of defined types. -/
def renumber {ε : Type} (f : Nat → Except ε Nat) : Storage → Except ε Storage
  | whole t => (t.renumber f).map whole
  | s => .ok s

end Storage

/-- A field of a structure, or the elements of an array. -/
structure Field where
  storage : Storage
  isMutable : Bool
  deriving DecidableEq, Repr

namespace Field

/-- A field as it is written. -/
def text (f : Field) : String :=
  if f.isMutable then "(mut " ++ f.storage.text ++ ")" else f.storage.text

/-- Replaces the numbers of defined types. -/
def renumber {ε : Type} (f : Nat → Except ε Nat) (x : Field) : Except ε Field :=
  (x.storage.renumber f).map fun storage => { x with storage }

end Field

/-- What a defined type is a type of. -/
inductive Shape where
  | func (signature : Signature)
  | struct (fields : List Field)
  | array (element : Field)
  /-- What is left to do of a call of a function of some type. -/
  | cont (function : Nat)
  deriving DecidableEq, Repr

namespace Shape

/-- The abstract type of everything of a shape. -/
def heap : Shape → HeapType
  | func _ => .func
  | struct _ => .struct
  | array _ => .array
  | cont _ => .cont

/-- The number of words that a shape takes to write down. -/
def size : Shape → Nat
  | func s => s.params.length + s.results.length + 1
  | struct fields => 2 * fields.length + 1
  | array _ => 2
  | cont _ => 1

/-- A list of types with a keyword before it, if there are any. -/
def listText (keyword : String) : List ValType → String
  | [] => ""
  | ts => " (" ++ String.intercalate " " (keyword :: ts.map ValType.fullText) ++ ")"

/-- A shape as it is written. -/
def text : Shape → String
  | func s => "(func" ++ listText "param" s.params ++ listText "result" s.results ++ ")"
  | struct fields => "(" ++ String.intercalate " " ("struct" :: fields.map Field.text) ++ ")"
  | array element => "(array " ++ element.text ++ ")"
  | cont n => s!"(cont (id {n}))"

/-- Replaces the numbers of defined types. -/
def renumber {ε : Type} (f : Nat → Except ε Nat) : Shape → Except ε Shape
  | func s => (s.renumber f).map func
  | struct fields => (fields.mapM (Field.renumber f)).map struct
  | array element => (element.renumber f).map array
  | cont n => (f n).map cont

end Shape

/-- The definition of a type. -/
structure TypeDef where
  /-- Whether no type may be declared below this one. -/
  isFinal : Bool
  /-- The type that this one is declared below, if any. -/
  parent : Option Nat
  isShared : Bool
  /-- The type that this one describes, if any. -/
  describes : Option Nat
  /-- The type that describes this one, if any. -/
  descriptor : Option Nat
  shape : Shape
  deriving DecidableEq, Repr

namespace TypeDef

/-- A definition as it is written. -/
def text (d : TypeDef) : String :=
  match d.isFinal, d.parent with
  | true, none => d.shape.text
  | true, some p => s!"(sub final (id {p}) " ++ d.shape.text ++ ")"
  | false, none => "(sub " ++ d.shape.text ++ ")"
  | false, some p => s!"(sub (id {p}) " ++ d.shape.text ++ ")"

/-- Replaces the numbers of defined types. -/
def renumber {ε : Type} (f : Nat → Except ε Nat) (d : TypeDef) : Except ε TypeDef := do
  return { d with parent := ← d.parent.mapM f, describes := ← d.describes.mapM f,
                  descriptor := ← d.descriptor.mapM f, shape := ← d.shape.renumber f }

end TypeDef

end Wasm
end WasmLowering
