/-
# Value types

The types of the words that code of the target works on: integers and floats of
32 and 64 bits, vectors of 128 bits, and references.  Emitted code uses the two
integer types alone; a checked module may use them all.

References fall into five hierarchies, each with a top and a bottom:

| top        | between                             | bottom       |
|------------|-------------------------------------|--------------|
| `any`      | `eq`, then `i31`, `struct`, `array` | `noAny`      |
| `func`     |                                     | `noFunc`     |
| `external` |                                     | `noExternal` |
| `exn`      |                                     | `noExn`      |
| `cont`     |                                     | `noCont`     |

A defined type lies between the abstract type of its shape and the bottom.  It
is known by a number.  What the number counts depends on the place: the types of
a module as they are read, the distinct types once they are resolved.

Continuations, shared types and exact types can be written but are not
supported: a module that declares something of such a type is refused.
-/

import WasmLowering.Width

namespace WasmLowering
namespace Wasm

/-- What a reference refers to. -/
inductive HeapType where
  | func
  | noFunc
  | external
  | noExternal
  | any
  | noAny
  | eq
  | i31
  | struct
  | array
  | exn
  | noExn
  | cont
  | noCont
  /-- What several threads may use. -/
  | shared (heap : HeapType)
  /-- A defined type without those below it. -/
  | exact (type : Nat)
  /-- A defined type, by its number. -/
  | defined (type : Nat)
  deriving DecidableEq, Repr

namespace HeapType

/-- The name of a nullable reference to a heap type, if it has one of its own. -/
def shorthand? : HeapType → Option String
  | func => some "funcref"
  | noFunc => some "nullfuncref"
  | external => some "externref"
  | noExternal => some "nullexternref"
  | any => some "anyref"
  | noAny => some "nullref"
  | eq => some "eqref"
  | i31 => some "i31ref"
  | struct => some "structref"
  | array => some "arrayref"
  | exn => some "exnref"
  | noExn => some "nullexnref"
  | cont => some "contref"
  | noCont => some "nullcontref"
  | shared h => h.shorthand?.map fun s => "(shared " ++ s ++ ")"
  | exact _ | defined _ => none

/-- The name of a heap type within the type of a reference; `number` names the defined types. -/
def text (number : Nat → String) : HeapType → String
  | func => "func"
  | noFunc => "nofunc"
  | external => "extern"
  | noExternal => "noextern"
  | any => "any"
  | noAny => "none"
  | eq => "eq"
  | i31 => "i31"
  | struct => "struct"
  | array => "array"
  | exn => "exn"
  | noExn => "noexn"
  | cont => "cont"
  | noCont => "nocont"
  | shared h => "(shared " ++ h.text number ++ ")"
  | exact n => "(exact " ++ number n ++ ")"
  | defined n => number n

/-- The number that indices of types stay below. -/
def indexBound : Nat := 1048576

/-- Whether a heap type has an index that is too large for the type of a reference. -/
def isBeyond : HeapType → Bool
  | exact n => indexBound ≤ n
  | _ => false

/-- Whether several threads may use what is referred to. -/
def isShared : HeapType → Bool
  | shared _ => true
  | _ => false

/-- An abstract heap type, shared if another one is. -/
def sharedLike (h other : HeapType) : HeapType := if other.isShared then shared h else h

/-- Replaces the numbers of defined types. -/
def renumber {ε : Type} (f : Nat → Except ε Nat) : HeapType → Except ε HeapType
  | defined n => (f n).map defined
  | exact n => (f n).map exact
  | h => .ok h

/-- Whether an abstract heap type lies below another in its hierarchy. -/
def le : HeapType → HeapType → Bool
  | noFunc, func | noExternal, external | noExn, exn | noCont, cont => true
  | noAny, any | noAny, eq | noAny, i31 | noAny, struct | noAny, array => true
  | i31, any | i31, eq | struct, any | struct, eq | array, any | array, eq => true
  | eq, any => true
  | shared a, shared b => a.le b
  | a, b => a == b

/-- **A heap type lies below itself.** -/
@[simp] theorem le_refl (h : HeapType) : h.le h = true := by
  induction h <;> simp_all [le]

end HeapType

/-- The type of a reference. -/
structure RefType where
  nullable : Bool
  heap : HeapType
  deriving DecidableEq, Repr

namespace RefType

/-- A reference that may be null. -/
abbrev null (h : HeapType) : RefType := ⟨true, h⟩

/-- A reference that is never null. -/
abbrev nonNull (h : HeapType) : RefType := ⟨false, h⟩

/-- The same reference, known not to be null. -/
def asNonNull (r : RefType) : RefType := { r with nullable := false }

/-- What is left of a type when the values of another are taken out: null goes if the other has it. -/
def minus (r other : RefType) : RefType := if other.nullable then r.asNonNull else r

/-- The name of a reference type; `number` names the defined types. -/
def textWith (number : Nat → String) (r : RefType) : String :=
  match r.nullable, r.heap.shorthand? with
  | true, some s => s
  | true, none => "(ref null " ++ r.heap.text number ++ ")"
  | false, _ => "(ref " ++ r.heap.text number ++ ")"

/-- The name of a reference type, which leaves out which type is defined. -/
def text (r : RefType) : String := r.textWith fun _ => "$type"

/-- The name of a reference type, with the number of a defined type.  That it may be null is left out
of an exact type. -/
def fullText (r : RefType) : String :=
  match r.heap with
  | .exact n => s!"(ref (exact (id {n})))"
  | _ => r.textWith fun n => s!"(id {n})"

/-- Replaces the numbers of defined types. -/
def renumber {ε : Type} (f : Nat → Except ε Nat) (r : RefType) : Except ε RefType :=
  (r.heap.renumber f).map fun heap => { r with heap }

end RefType

/-- The type of a word. -/
inductive ValType where
  | i32
  | i64
  | f32
  | f64
  | v128
  | ref (type : RefType)
  deriving DecidableEq, Repr

namespace ValType

/-- The type of the words of a kind. -/
def ofKind : Kind → ValType
  | .i32 => i32
  | .i64 => i64

/-- The name of a type; `refText` names the types of references. -/
def textWith (refText : RefType → String) : ValType → String
  | i32 => "i32"
  | i64 => "i64"
  | f32 => "f32"
  | f64 => "f64"
  | v128 => "v128"
  | ref r => refText r

/-- The name of a type, which leaves out which type is defined. -/
def text (t : ValType) : String := t.textWith RefType.text

/-- The name of a type, with the number of a defined type. -/
def fullText (t : ValType) : String := t.textWith RefType.fullText

/-- Whether a type has a value that every variable of it can start with. -/
def hasDefault : ValType → Bool
  | ref r => r.nullable
  | _ => true

/-- Replaces the numbers of defined types. -/
def renumber {ε : Type} (f : Nat → Except ε Nat) : ValType → Except ε ValType
  | ref r => (r.renumber f).map ref
  | t => .ok t

end ValType

/-- The types of the words that a function or a block takes and gives, the last one topmost. -/
structure Signature where
  params : List ValType
  results : List ValType
  deriving DecidableEq, Repr

/-- Replaces the numbers of defined types. -/
def Signature.renumber {ε : Type} (f : Nat → Except ε Nat) (s : Signature) : Except ε Signature := do
  return { params := ← s.params.mapM (ValType.renumber f),
           results := ← s.results.mapM (ValType.renumber f) }

end Wasm
end WasmLowering
