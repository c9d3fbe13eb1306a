/-
# Expressions

`Expr`, with `construct_name`.

The body of a function is one expression.  Every expression leaves one value;
the constructs run for their effect leave the unit value.  Variables are
numbered within a frame, arguments first and then declared locals, and buffers
are addressed by element size, base and index.
-/

import WasmLowering.Operator
import WasmLowering.Width

namespace WasmLowering

/-- An expression of the source language. -/
inductive Expr where
  /-- The variable with a given number. -/
  | var (index : Nat)
  /-- A global, by name. -/
  | global (name : String)
  /-- An integer in source syntax. -/
  | literal (width : Width) (text : String)
  /-- The address of a zero-terminated string. -/
  | string (text : String)
  | binary (op : Operator) (width : Width) (lhs rhs : Expr)
  | call (name : String) (args : List Expr)
  /-- A new buffer of `count` elements of `size` bytes. -/
  | bufCreate (size : Nat) (count : Expr)
  | bufRead (size : Nat) (base index : Expr)
  | bufWrite (size : Nat) (base index value : Expr)
  /-- The address of an element. -/
  | bufSub (size : Nat) (base index : Expr)
  | cast (operand : Expr) (source target : Width)
  | ifThenElse (cond whenTrue whenFalse : Expr) (width : Width)
  | assign (index : Nat) (value : Expr)
  | whileLoop (cond body : Expr)
  /-- An expression run for its effect. -/
  | ignore (operand : Expr)
  /-- The value of the last expression; the unit value of none. -/
  | sequence (items : List Expr)
  /-- Opens an allocation frame. -/
  | pushFrame
  /-- Releases everything allocated since the matching `pushFrame`. -/
  | popFrame
  | bufInit (size : Nat) (items : List Expr)
  | bufBlit (size : Nat) (source sourceIndex target targetIndex count : Expr)
  | bufFill (size : Nat) (base value count : Expr)
  | bufFree (operand : Expr)
  | abort (text : String)
  | switch (scrutinee : Expr) (branches : List (String × Expr))
  deriving Repr, Inhabited

/-- The name of an expression's outermost construct in messages. -/
def Expr.construct : Expr → String
  | var .. => "Var"
  | global .. => "GlobalVar"
  | literal .. => "Literal"
  | string .. => "StringLiteral"
  | binary .. => "BinOp"
  | call .. => "Call"
  | bufCreate .. => "BufCreate"
  | bufRead .. => "BufRead"
  | bufWrite .. => "BufWrite"
  | bufSub .. => "BufSub"
  | cast .. => "Cast"
  | ifThenElse .. => "IfThenElse"
  | assign .. => "Assign"
  | whileLoop .. => "While"
  | ignore .. => "Ignore"
  | sequence .. => "Sequence"
  | pushFrame => "PushFrame"
  | popFrame => "PopFrame"
  | bufInit .. => "BufCreateL"
  | bufBlit .. => "BufBlit"
  | bufFill .. => "BufFill"
  | bufFree .. => "BufFree"
  | abort .. => "Abort"
  | switch .. => "Switch"

end WasmLowering
