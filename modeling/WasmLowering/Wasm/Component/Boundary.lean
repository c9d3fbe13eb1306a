/-
# Functions across the boundary

A function of a component takes and gives values; a function of a module takes
and gives words.  A value is passed as a few words if they are few enough, and by
its address otherwise.

| passed             | as words     | otherwise                     |
|--------------------|--------------|-------------------------------|
| the parameters     | at most `16` | one address                   |
| the result, lifted | at most `1`  | an address that is given back |
| the result, lowered | at most `1` | an address behind the parameters |

Addresses need a memory.  What the other side is to keep, and texts and lists in
it, also needs a function that finds room there.
-/

import WasmLowering.Wasm.Component.Reader

namespace WasmLowering
namespace Wasm

/-- The words that a type needs no definition of is passed as. -/
def Primitive.words : Primitive → List ValType
  | .s64 | .u64 => [.i64]
  | .f32 => [.f32]
  | .f64 => [.f64]
  | .string => [.i32, .i32]
  | _ => [.i32]

/-- The options of a function across the boundary that matter to its type. -/
structure Boundary where
  memory : Option Nat
  realloc : Option Nat
  postReturn : Option Nat
  deriving DecidableEq, Repr

namespace Boundary

/-- No options. -/
def plain : Boundary := ⟨none, none, none⟩

/-- The word that can hold words of either type. -/
def joinWord : ValType → ValType → ValType
  | .i32, .f32 | .f32, .i32 => .i32
  | a, b => if a = b then a else .i64

/-- The words that can hold any of two lists of words. -/
def joinWords : List ValType → List ValType → List ValType
  | a :: as, b :: bs => joinWord a b :: joinWords as bs
  | [], bs => bs
  | as, [] => as

/-- The words of a choice between lists of words, with the number of the choice in front. -/
def choice (cases : List (List ValType)) : List ValType := .i32 :: cases.foldl joinWords []

/-- The words that values of a type are passed as, if they are at most `limit`, following references at
most `depth` times. -/
def flat? (r : Registry) (limit : Nat) : (depth : Nat) → ValueType → Option (List ValType)
  | _, .primitive p => if p.words.length ≤ limit then some p.words else none
  | 0, _ => none
  | depth + 1, .defined place => do
    let words ← match r.shape place with
      | .primitive p => some p.words
      | .record fields => (fields.mapM fun f => flat? r limit depth f.2).map List.flatten
      | .tuple items => (items.mapM (flat? r limit depth)).map List.flatten
      | .variant cases =>
        ((cases.filterMap Prod.snd).mapM (flat? r limit depth)).map choice
      | .option v => (flat? r limit depth v).map fun words => choice [words]
      | .result ok err =>
        ((ok.toList ++ err.toList).mapM (flat? r limit depth)).map choice
      | .list _ => some [.i32, .i32]
      | .flags _ | .enumeration _ | .own _ | .borrow _ => some [.i32]
    guard (words.length ≤ limit)
    return words

/-- Whether values of a type have texts or lists in them. -/
def hasPointer (r : Registry) : (depth : Nat) → ValueType → Bool
  | _, .primitive p => p == .string
  | 0, _ => false
  | depth + 1, .defined place =>
    match r.shape place with
    | .primitive p => p == .string
    | .list _ => true
    | shape => shape.values.any (hasPointer r depth)

/-- Refuses a function that needs an option which is not given. -/
def needs (option : String) (given : Option Nat) : Except Violation Unit :=
  if given.isSome then .ok () else .error (.part (.missingOption option))

/-- Checks that a memory is given. -/
def needsMemory (b : Boundary) : Except Violation Unit := needs "memory" b.memory

/-- Checks that a function is given that finds room, and a memory. -/
def needsRealloc (b : Boundary) : Except Violation Unit := do
  b.needsMemory
  needs "realloc" b.realloc

/-- The most words that parameters are passed as. -/
def paramLimit : Nat := 16

/-- The words that parameters are passed as, behind those at hand. -/
def params (r : Registry) (needed : Except Violation Unit) :
    List ValueType → List ValType → Except Violation (List ValType)
  | [], words => .ok words
  | t :: ts, words => do
    if hasPointer r r.depth t then needed
    match flat? r paramLimit r.depth t with
    | some more =>
      if words.length + more.length ≤ paramLimit then params r needed ts (words ++ more)
      else
        needed
        return [.i32]
    | none =>
      needed
      return [.i32]

/-- The signature of the function of a module that stands for a function of a component. -/
def signature (b : Boundary) (r : Registry) (isLifted : Bool) (f : FunctionType) :
    Except Violation Signature := do
  let words ← params r (if isLifted then b.needsRealloc else b.needsMemory) (f.params.map Prod.snd) []
  match f.result with
  | none => return ⟨words, []⟩
  | some t =>
    if !isLifted && hasPointer r r.depth t then b.needsRealloc
    match flat? r 1 r.depth t with
    | some result => return ⟨words, result⟩
    | none =>
      b.needsMemory
      return if isLifted then ⟨words, [.i32]⟩ else ⟨words ++ [.i32], []⟩

end Boundary

end Wasm
end WasmLowering
