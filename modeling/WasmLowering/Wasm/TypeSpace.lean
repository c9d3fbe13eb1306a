/-
# Defined types

A module defines types of functions, structures and arrays in groups; the types
of a group may refer to each other.  Two groups are the same if they agree type
by type, where a reference into the own group is told by its place there and any
other by the type it means.  So types are numbered by what they are: a group
that was met before gets the numbers it had.

A type may be declared below an earlier one that is not final and that it
matches.  A defined type is below another if declarations lead up to it.
-/

import WasmLowering.Wasm.Violation

namespace WasmLowering
namespace Wasm

namespace HeapType

/-- Why references to a heap type are not supported, if they are not. -/
def unsupported? : HeapType → Option Violation
  | .shared _ => some .sharedRef
  | .cont | .noCont => some .contRef
  | .exact _ => some .exactRef
  | _ => none

end HeapType

/-- Why a value type is not supported, if it is not. -/
def ValType.unsupported? : ValType → Option Violation
  | .ref r => r.heap.unsupported?
  | _ => none

/-- Why the way to keep a word is not supported, if it is not. -/
def Storage.unsupported? : Storage → Option Violation
  | .whole t => t.unsupported?
  | _ => none

/-- Why a shape is not supported, if it is not. -/
def Shape.unsupported? : Shape → Option Violation
  | .func s => (s.params ++ s.results).findSome? ValType.unsupported?
  | .struct fields => fields.findSome? fun f => f.storage.unsupported?
  | .array element => element.storage.unsupported?
  | .cont _ => some .contType

/-- Why a definition is not supported, if it is not. -/
def TypeDef.unsupported? (d : TypeDef) : Option Violation :=
  if d.isShared then some .sharedType else d.shape.unsupported?

/-- The types of a module. -/
structure TypeSpace where
  /-- The number of each type that the module defines. -/
  numbers : Array Nat
  /-- The definitions of the numbered types. -/
  defs : Array TypeDef
  /-- The groups with the number of their first type.  In a group of `n` types the numbers below `n`
  count within it, and any other type has its own number plus `n`. -/
  groups : List (Nat × List TypeDef)
  deriving DecidableEq, Repr

namespace TypeSpace

/-- No types. -/
def empty : TypeSpace := ⟨#[], #[], []⟩

/-- The number of the type with an index. -/
def number (s : TypeSpace) (index : Nat) : Except Violation Nat :=
  (s.numbers[index]?).elim (.error (.unknownType index)) .ok

/-- The shape of a numbered type. -/
def shape? (s : TypeSpace) (n : Nat) : Option Shape := (s.defs[n]?).map TypeDef.shape

/-- The signature of a numbered type, if it is a type of functions. -/
def signature? (s : TypeSpace) (n : Nat) : Option Signature :=
  match s.shape? n with
  | some (.func sig) => some sig
  | _ => none

/-- Whether declarations lead from a type up to another in some steps. -/
def reaches (s : TypeSpace) : (steps : Nat) → Nat → Nat → Bool
  | 0, a, b => a == b
  | steps + 1, a, b =>
    a == b || match (s.defs[a]?).bind TypeDef.parent with
      | some p => s.reaches steps p b
      | none => false

/-- Whether a heap type is below another.  A parent comes before its children. -/
def heapLe (s : TypeSpace) : HeapType → HeapType → Bool
  | .defined a, .defined b => s.reaches a a b
  | .exact a, .exact b => a == b
  | .exact a, .defined b => s.reaches a a b
  | .exact a, b => (s.shape? a).any fun shape => shape.heap.le b
  | .defined a, b => (s.shape? a).any fun shape => shape.heap.le b
  | .noFunc, .defined b | .noFunc, .exact b => (s.shape? b).any fun shape => shape.heap == .func
  | .noAny, .defined b | .noAny, .exact b => (s.shape? b).any fun shape => shape.heap.le .any
  | .noCont, .defined b | .noCont, .exact b => (s.shape? b).any fun shape => shape.heap == .cont
  | a, b => a.le b

/-- Whether a reference type is below another. -/
def refLe (s : TypeSpace) (a b : RefType) : Bool :=
  (b.nullable || !a.nullable) && s.heapLe a.heap b.heap

/-- Whether the words of a type are also words of another. -/
def valLe (s : TypeSpace) : ValType → ValType → Bool
  | .ref a, .ref b => s.refLe a b
  | a, b => a == b

/-- Whether lists of types are below each other, type by type. -/
def allLe (s : TypeSpace) : List ValType → List ValType → Bool
  | [], [] => true
  | a :: as, b :: bs => s.valLe a b && s.allLe as bs
  | _, _ => false

/-- **Declarations lead from a type to itself.** -/
@[simp] theorem reaches_self (s : TypeSpace) (steps n : Nat) : s.reaches steps n n = true := by
  cases steps <;> simp [reaches]

/-- **A heap type is below itself.** -/
@[simp] theorem heapLe_refl (s : TypeSpace) (h : HeapType) : s.heapLe h h = true := by
  cases h <;> simp [heapLe]

/-- **A value type is below itself.** -/
@[simp] theorem valLe_refl (s : TypeSpace) (t : ValType) : s.valLe t t = true := by
  cases t with
  | ref r => cases r with | mk nullable heap => cases nullable <;> simp [valLe, refLe]
  | _ => simp [valLe]

/-- Whether what is kept in one way can be read as if it were kept in another. -/
def storageLe (s : TypeSpace) : Storage → Storage → Bool
  | .whole a, .whole b => s.valLe a b
  | a, b => a == b

/-- Whether a field can stand for another; one that is written must be of the same type. -/
def fieldLe (s : TypeSpace) (a b : Field) : Bool :=
  if a.isMutable || b.isMutable then a == b else s.storageLe a.storage b.storage

/-- Whether fields can stand for fewer ones. -/
def fieldsLe (s : TypeSpace) : List Field → List Field → Bool
  | _, [] => true
  | a :: as, b :: bs => s.fieldLe a b && s.fieldsLe as bs
  | [], _ :: _ => false

/-- Whether a shape matches the shape of a type above it. -/
def shapeLe (s : TypeSpace) : Shape → Shape → Bool
  | .func a, .func b => s.allLe b.params a.params && s.allLe a.results b.results
  | .struct a, .struct b => s.fieldsLe a b
  | .array a, .array b => s.fieldLe a b
  | .cont a, .cont b => s.reaches a a b
  | _, _ => false

/-- The top of the hierarchy of a heap type. -/
def top (s : TypeSpace) : HeapType → HeapType
  | .func | .noFunc => .func
  | .external | .noExternal => .external
  | .exn | .noExn => .exn
  | .cont | .noCont => .cont
  | .shared h => .shared (s.top h)
  | .defined n | .exact n =>
    match s.shape? n with
    | some (.func _) => .func
    | some (.cont _) => .cont
    | _ => .any
  | _ => .any

/-- The greatest number of declarations that lead up from a type. -/
def depthLimit : Nat := 63

/-- The number of declarations that lead up from a type, counted up to some steps. -/
def depth (s : TypeSpace) : (steps : Nat) → Nat → Nat
  | 0, _ => 0
  | steps + 1, n =>
    match (s.defs[n]?).bind TypeDef.parent with
    | some p => s.depth steps p + 1
    | none => 0

/-- Checks a definition against the one it is declared below. -/
def checkParent (s : TypeSpace) (n : Nat) (d : TypeDef) (parent : Nat) : Except Violation Unit := do
  let some above := s.defs[parent]? | throw .parentMismatch
  if above.isFinal then throw .finalParent
  unless s.shapeLe d.shape above.shape do throw .parentMismatch
  let depth := s.depth (depthLimit + 1) n
  if depthLimit < depth then throw (.deepHierarchy depth depthLimit)

/-- Checks a definition on its own and against the one it is declared below. -/
def checkDef (s : TypeSpace) (n : Nat) (d : TypeDef) : Except Violation Unit := do
  if let some cause := d.unsupported? then throw cause
  d.parent.forM (s.checkParent n d)
  if d.describes.isSome || d.descriptor.isSome then throw .describedType

/-- Where a type of a group of `size` types that starts at an index finds the type with an index. -/
def groupNumber (s : TypeSpace) (size index : Nat) : Except Violation Nat :=
  if index < s.numbers.size then (s.number index).map (· + size)
  else if index - s.numbers.size < size then .ok (index - s.numbers.size)
  else .error (.unknownType index)

/-- The types of a group as they are kept: each is declared below an earlier one, if below any, and
describes an earlier one, if any. -/
def groupKey (s : TypeSpace) (size : Nat) : (index : Nat) → List TypeDef → Except Violation (List TypeDef)
  | _, [] => .ok []
  | index, d :: ds => do
    if d.parent.any (index ≤ ·) then throw .parentOrder
    if d.describes.any (index ≤ ·) then throw .describesLater
    let d ← d.renumber (s.groupNumber size)
    return d :: (← s.groupKey size (index + 1) ds)

/-- Checks the definitions of a group whose first type has a number. -/
def checkDefs (s : TypeSpace) (first : Nat) : List TypeDef → Except Violation Unit
  | [] => .ok ()
  | d :: ds => do
    s.checkDef first d
    s.checkDefs (first + 1) ds

/-- Adds a group of types. -/
def define (s : TypeSpace) (group : List TypeDef) : Except Violation TypeSpace := do
  let size := group.length
  let key ← s.groupKey size s.numbers.size group
  match s.groups.find? fun g => g.2 == key with
  | some (first, _) => return { s with numbers := s.numbers ++ Array.range' first size }
  | none =>
    let first := s.defs.size
    let defs ← key.mapM (TypeDef.renumber fun n => .ok (if n < size then first + n else n - size))
    let extended : TypeSpace :=
      { numbers := s.numbers ++ Array.range' first size
        defs := s.defs ++ defs.toArray
        groups := s.groups ++ [(first, key)] }
    extended.checkDefs first defs
    return extended

/-- The number of the type of functions with a signature of number types; the type is added if it is not
there. -/
def intern (s : TypeSpace) (signature : Signature) : TypeSpace × Nat :=
  let d : TypeDef :=
    { isFinal := true, parent := none, isShared := false, describes := none, descriptor := none,
      shape := .func signature }
  match s.groups.find? fun g => g.2 == [d] with
  | some (n, _) => (s, n)
  | none =>
    ({ s with defs := s.defs.push d, groups := s.groups ++ [(s.defs.size, [d])] }, s.defs.size)

/-- A reference type that is supported, with its defined type resolved.  What is too large for an index
is no type at all. -/
def resolveRef (s : TypeSpace) (t : RefType) : Except Violation RefType := do
  unless t.heap.isBeyond do
    if let some cause := t.heap.unsupported? then throw cause
  t.renumber s.number

/-- A value type that is supported, with its defined types resolved. -/
def resolveVal (s : TypeSpace) (t : ValType) : Except Violation ValType := do
  if let some cause := t.unsupported? then throw cause
  t.renumber s.number

end TypeSpace

end Wasm
end WasmLowering
