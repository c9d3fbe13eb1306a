/-
# Operations

An instruction as it is checked: what it refers to, and the words it takes and
leaves.  The many instructions that compute words from words of fixed types are
one form of operation, known by those types alone; and so are the many accesses
to a memory.  Instructions that are not supported are one form as well.
-/

import WasmLowering.Wasm.Nesting
import WasmLowering.Wasm.TypeReader

namespace WasmLowering
namespace Wasm

/-- The words that an operation takes, topmost first, and the words it leaves. -/
structure Effect where
  takes : List ValType
  leaves : List ValType
  deriving DecidableEq, Repr

/-- An access to a memory at the address on the stack. -/
structure Access where
  memory : Nat
  /-- The binary logarithm of the alignment that is promised. -/
  align : Nat
  /-- The binary logarithm of the number of bytes accessed. -/
  natural : Nat
  /-- Whether the alignment must be the natural one. -/
  isAtomic : Bool
  offset : Nat
  /-- The words above the address, topmost first, and the words left. -/
  effect : Effect
  deriving DecidableEq, Repr

/-- What a block catches, and where it goes then. -/
structure Handler where
  /-- The tag of what is caught; `none` catches everything. -/
  tag : Option Nat
  /-- Whether a reference to what was caught is taken along. -/
  withRef : Bool
  label : Nat
  deriving DecidableEq, Repr

/-- How a field is read: as it is, or extended to a word with or without its sign. -/
inductive FieldRead where
  | whole
  | signed
  | unsigned
  deriving DecidableEq, Repr

/-- The name of the instruction that reads a field or an element in some way. -/
def FieldRead.text (of : String) : FieldRead → String
  | .whole => of ++ ".get"
  | .signed => of ++ ".get_s"
  | .unsigned => of ++ ".get_u"

/-- An instruction as it is checked.  Types are as they are written. -/
inductive Operation where
  /-- Computes words from words; `isConst` tells whether a constant expression may do so. -/
  | compute (effect : Effect) (isConst : Bool)
  /-- Accesses a memory, for one lane of a vector if its number is given. -/
  | access (access : Access) (lane : Option Nat)
  /-- Computes words from words with a lane of a vector of so many lanes. -/
  | atLane (lane lanes : Nat) (effect : Effect)
  /-- Picks the lanes of a vector from two vectors. -/
  | shuffle (lanes : List Nat)
  /-- Takes references below some heap types, topmost first, and tells a number about them. -/
  | inspect (heaps : List HeapType)
  /-- An instruction that is not supported, and why; `isConst` tells whether a constant expression might
  contain it. -/
  | refused (cause : Violation) (isConst : Bool)
  | localGet (index : Nat)
  | localSet (index : Nat)
  | localTee (index : Nat)
  | globalGet (index : Nat)
  | globalSet (index : Nat)
  | drop
  | select
  | selectOf (types : List ValType)
  | unreachable
  | block (form : BlockForm) (type : BlockType)
  | handle (type : BlockType) (handlers : List Handler)
  | otherwise
  | finish
  | br (depth : Nat)
  | brIf (depth : Nat)
  | brTable (depths : List Nat) (last : Nat)
  | ret
  | call (isTail : Bool) (function : Nat)
  | callTable (isTail : Bool) (type table : Nat)
  | callRef (isTail : Bool) (type : Nat)
  | throwTag (tag : Nat)
  | throwRef
  | refNull (heap : HeapType)
  | refIsNull
  | refFunc (function : Nat)
  | refAsNonNull
  | brOnNull (depth : Nat)
  | brOnNonNull (depth : Nat)
  | refTest (type : RefType)
  | refCast (type : RefType)
  /-- Branches if a cast succeeds, or if it fails. -/
  | brOnCast (onFailure : Bool) (depth : Nat) (source target : RefType)
  | anyOfExternal
  | externalOfAny
  | memorySize (memory : Nat)
  | memoryGrow (memory : Nat)
  | memoryFill (memory : Nat)
  | memoryCopy (target source : Nat)
  | memoryInit (data memory : Nat)
  | dataDrop (data : Nat)
  | tableGet (table : Nat)
  | tableSet (table : Nat)
  | tableSize (table : Nat)
  | tableGrow (table : Nat)
  | tableFill (table : Nat)
  | tableCopy (target source : Nat)
  | tableInit (elements table : Nat)
  | elementsDrop (elements : Nat)
  | structNew (type : Nat)
  | structDefault (type : Nat)
  | structGet (read : FieldRead) (type field : Nat)
  | structSet (type field : Nat)
  | arrayNew (type : Nat)
  | arrayDefault (type : Nat)
  | arrayOf (type count : Nat)
  | arrayOfData (type data : Nat)
  | arrayOfElements (type elements : Nat)
  | arrayGet (read : FieldRead) (type : Nat)
  | arraySet (type : Nat)
  | arrayFill (type : Nat)
  | arrayCopy (target source : Nat)
  | arrayInitData (type data : Nat)
  | arrayInitElements (type elements : Nat)
  deriving DecidableEq, Repr

/-- Whether a constant expression may contain an operation; reading globals is restricted further. -/
def Operation.isConst : Operation → Bool
  | .compute _ c | .refused _ c => c
  | .globalGet _ | .refNull _ | .refFunc _ | .structNew _ | .structDefault _ | .arrayNew _
  | .arrayDefault _ | .arrayOf .. | .anyOfExternal | .externalOfAny | .finish => true
  | _ => false

end Wasm
end WasmLowering
