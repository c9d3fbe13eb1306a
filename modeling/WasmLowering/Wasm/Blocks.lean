/-
# Open blocks

Code is checked against a stack of open blocks, each with the types of the words
that stand on top of what it found.  Words are taken from the innermost block
and left in it.  A block closes when exactly its results are left in it.

After a branch nothing runs until the block closes.  Words taken from a block in
that state may be of any type, and there are always enough of them.

A local whose type has no default value is set before it is read.  What is set
within a block counts only there.
-/

import WasmLowering.Wasm.Declarations
import WasmLowering.Wasm.Operation

namespace WasmLowering
namespace Wasm

/-- What is known of a word on the stack. -/
inductive Operand where
  /-- A word of any type, in code that is never run. -/
  | any
  /-- A reference of any type, in code that is never run. -/
  | anyRef
  /-- A reference to something of a heap type, shared or not, in code that is never run. -/
  | anyRefTo (heap : HeapType)
  | known (type : ValType)
  deriving DecidableEq, Repr

/-- What is known of a reference that is also known not to be null. -/
def Operand.asNonNull : Operand → Operand
  | known (.ref r) => known (.ref r.asNonNull)
  | w => w

/-- Whether several threads may use what is referred to, if that is known. -/
def Operand.isShared? : Operand → Option Bool
  | known (.ref r) => some r.heap.isShared
  | _ => none

/-- An open block. -/
structure Block where
  form : BlockForm
  signature : Signature
  /-- The words left in the block, topmost first. -/
  operands : List Operand
  /-- Whether the rest of the block is never run. -/
  isDead : Bool
  /-- The locals without a default value that are set. -/
  ready : List Nat
  deriving DecidableEq, Repr

namespace Block

/-- A block that has just been opened finds its parameters. -/
def opened (form : BlockForm) (signature : Signature) (ready : List Nat) : Block :=
  ⟨form, signature, (signature.params.map .known).reverse, false, ready⟩

/-- The types of the words that a branch to the block takes along. -/
def labelTypes (b : Block) : List ValType :=
  match b.form with
  | .loop => b.signature.params
  | _ => b.signature.results

/-- Takes a word off a block; `none` accepts any type. -/
def pop (types : TypeSpace) (b : Block) (expected : Option ValType) :
    Except Violation (Operand × Block) :=
  match b.operands with
  | [] => if b.isDead then .ok (.any, b) else .error (.missingOperand expected)
  | top :: rest =>
    let popped := (top, { b with operands := rest })
    match expected, top with
    | some e, .known t => if types.valLe t e then .ok popped else .error (.typeMismatch e t)
    | some (.ref _), .anyRef => .ok popped
    | some (.ref e), .anyRefTo h =>
      let found := RefType.nonNull (h.sharedLike e.heap)
      if types.refLe found e then .ok popped else .error (.typeMismatch (.ref e) (.ref found))
    | some e, .anyRef | some e, .anyRefTo _ => .error (.refFound e)
    | _, _ => .ok popped

/-- Takes words off a block, topmost first. -/
def popAll (types : TypeSpace) (b : Block) : List ValType → Except Violation Block
  | [] => .ok b
  | e :: es => do
    let (_, b) ← b.pop types (some e)
    b.popAll types es

/-- Takes a number of words of one type off a block.  There are always enough in a block that is never
run. -/
def popSame (types : TypeSpace) (b : Block) (expected : ValType) :
    (count : Nat) → Except Violation Block
  | 0 => .ok b
  | count + 1 =>
    if b.isDead && b.operands.isEmpty then .ok b
    else do
      let (_, b) ← b.pop types (some expected)
      b.popSame types expected count

/-- Leaves a word in a block. -/
def push (b : Block) (w : Operand) : Block := { b with operands := w :: b.operands }

/-- Leaves words in a block, the last one topmost. -/
def pushAll (b : Block) (words : List ValType) : Block :=
  { b with operands := (words.map .known).reverse ++ b.operands }

/-- The rest of a block is never run. -/
def kill (b : Block) : Block := { b with operands := [], isDead := true }

/-- Checks that exactly the results are left in a block. -/
def close (types : TypeSpace) (b : Block) : Except Violation Unit := do
  let b ← b.popAll types b.signature.results.reverse
  unless b.operands.isEmpty do throw .leftoverOperands

end Block

/-- The open blocks, innermost first. -/
abbrev Blocks := List Block

/-- A check of an operation in a context against the open blocks. -/
abbrev Check := ReaderT CodeContext (StateT Blocks (Except Violation))

namespace Check

/-- What the context holds. -/
def ask {α : Type} (question : CodeContext → Except Violation α) : Check α := do
  liftM (question (← read))

/-- The innermost block. -/
def innermost : Check Block := do
  match ← get with
  | [] => throw .codeAfterEnd
  | b :: _ => return b

/-- Changes the innermost block. -/
def replace (b : Block) : Check Unit := modify fun blocks => b :: blocks.tail

/-- Takes a word; `none` accepts any type. -/
def popAny (expected : Option ValType) : Check Operand := do
  let (w, b) ← liftM ((← innermost).pop (← read).types expected)
  replace b
  return w

/-- Takes a word of a type. -/
def pop (expected : ValType) : Check Unit := do
  let _ ← popAny (some expected)

/-- Takes words, topmost first. -/
def popAll (expected : List ValType) : Check Unit := do
  replace (← liftM ((← innermost).popAll (← read).types expected))

/-- Takes a number of words of one type. -/
def popSame (expected : ValType) (count : Nat) : Check Unit := do
  replace (← liftM ((← innermost).popSame (← read).types expected count))

/-- Takes a reference of any type. -/
def popRef : Check Operand := do
  match ← popAny none with
  | .any => return .anyRef
  | .known (.ref r) => return .known (.ref r)
  | .known t => throw (.refExpected t)
  | w => return w

/-- Takes a reference to something below a heap type, or below the shared one if it is shared. -/
def popBelow (heap : HeapType) : Check Operand := do
  let types := (← read).types
  match ← popRef with
  | .known (.ref r) =>
    let bound := RefType.null (heap.sharedLike r.heap)
    unless types.refLe r bound do throw (.notBelow bound r)
    return .known (.ref r)
  | .anyRefTo h =>
    unless types.heapLe h heap do throw (.heapNotBelow heap h)
    return .anyRefTo h
  | w => return w

/-- Leaves a word of which something is known. -/
def pushOperand (w : Operand) : Check Unit := do replace ((← innermost).push w)

/-- Leaves a word of a type. -/
def push (type : ValType) : Check Unit := pushOperand (.known type)

/-- Leaves words, the last one topmost. -/
def pushAll (types : List ValType) : Check Unit := do replace ((← innermost).pushAll types)

/-- Takes words that a signature takes, and leaves those it leaves. -/
def apply (s : Signature) : Check Unit := do
  popAll s.params.reverse
  pushAll s.results

/-- The rest of the innermost block is never run. -/
def kill : Check Unit := do replace (← innermost).kill

/-- The types of the words that a branch takes along. -/
def labelTypes (depth : Nat) : Check (List ValType) := do
  match (← get)[depth]? with
  | none => throw .unknownLabel
  | some b => return b.labelTypes

/-- Opens a block, whose parameters are taken from the innermost one. -/
def enter (form : BlockForm) (s : Signature) : Check Unit := do
  let b ← innermost
  modify fun blocks => .opened form s b.ready :: blocks

/-- Closes the innermost block; the results are for the caller to leave. -/
def leave : Check Block := do
  let b ← innermost
  let _ ← liftM (b.close (← read).types)
  modify List.tail
  return b

/-- Leaves words in the innermost block, if one is open. -/
def pushOuter (types : List ValType) : Check Unit :=
  modify fun
    | [] => []
    | b :: outer => b.pushAll types :: outer

/-- A local is set from here on. -/
def markReady (i : Nat) (type : ValType) : Check Unit := do
  let b ← innermost
  unless type.hasDefault || b.ready.contains i do replace { b with ready := i :: b.ready }

end Check

end Wasm
end WasmLowering
