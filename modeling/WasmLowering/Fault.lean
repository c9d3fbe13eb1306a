/-
# Faults

The causes behind each `CompilerError`, with `in_function` and `in_unit`.

Everything that can go wrong, as causes.  A fault names what failed and carries
the data its report needs; `Fault.diagnostic` alone decides how it is worded.
The three last constructors say where a cause was met.  The place nearest to
the cause wins for functions and units, and an initializer names its global over
whatever the cause named.
-/

import WasmLowering.Diagnostic
import WasmLowering.Operator
import WasmLowering.Wasm.Violation

namespace WasmLowering

/-- The sorts of symbols that a scope binds. -/
inductive SymbolSort where
  | function
  | global
  deriving DecidableEq, Repr

/-- The name of a sort in messages. -/
def SymbolSort.text : SymbolSort → String
  | .function => "function"
  | .global => "global"

/-- Why the text of a file could not be read. -/
inductive ReadFailure where
  | notFound
  | isDirectory
  | notUtf8
  deriving DecidableEq, Repr

/-- The wording of a failure to read. -/
def ReadFailure.text : ReadFailure → String
  | notFound => "No such file or directory (os error 2)"
  | isDirectory => "Is a directory (os error 21)"
  | notUtf8 => "stream did not contain valid UTF-8"

/-- A cause of failure. -/
inductive Fault where
  /-- No instruction computes the operator at this width. -/
  | unmappedOperator (op : Operator) (width : Width)
  /-- The operator reads a sign that a narrow width does not keep in its word. -/
  | signedNarrow (op : Operator) (width : Width)
  | boolCast (source target : Width)
  | missingCast (source target : Width)
  | boolLiteral (text : String)
  | malformedLiteral (width : Width) (text : String)
  | literalRange (width : Width) (text : String)
  /-- A trace record of `required` bytes is longer than its window. -/
  | recordTooLong (budget required : Nat)
  /-- An imported function's type does not have the function's own index. -/
  | importMisaligned (unit owner name : String) (type position : Nat)
  /-- An imported function's type is not among the known types. -/
  | importUntyped (unit owner name : String) (type known : Nat)
  | typeCount (unit : String) (types functions : Nat)
  /-- A unit does not have a type for each of its functions, imported ones included. -/
  | unitTypes (unit : String) (types functions : Nat)
  | reservedName (name unit : String)
  | duplicateName (name unit : String)
  | unbound (sort : SymbolSort) (name : String)
  /-- An initializer reads a global of its own unit. -/
  | initializerReadsOwn (global read : String)
  | initializerNotConstant (construct : String)
  | constantOperands (op : Operator) (width : Width)
  | constantOperator (op : Operator) (width : Width)
  /-- An initializer folds to a word of another kind than the global's. -/
  | initializerKind (global : String) (kind : Kind) (width : Width)
  | variableRange (index args locals : Nat)
  | elementLoad (size : Nat)
  | elementStore (size : Nat)
  /-- Part of a construct opens or closes frames without closing or reopening them. -/
  | unbalanced (construct : String) (now before : Nat)
  | unmatchedPop
  | unsupported (construct : String)
  | manyResults (function : String) (count : Nat)
  | openFrames (function : String) (count : Nat)
  | invalidModule (unit : String) (rejection : Wasm.Rejection)
  | configSyntax
  | configNoPages
  | configUnreadable (path : String) (failure : ReadFailure)
  | inInitializer (global : String) (cause : Fault)
  | inFunction (name : String) (cause : Fault)
  | inUnit (name : String) (cause : Fault)
  deriving DecidableEq, Repr

namespace Fault

/-- How a fault is reported. -/
def diagnostic : Fault → Diagnostic
  | unmappedOperator op w =>
    { kind := .notImplemented
      message := s!"Operator '{op.text}' has no instruction mapping at width '{w.text}'" : Diagnostic }
    |>.note .width w.text |>.note .operator op.text
  | signedNarrow op w =>
    { kind := .notImplemented
      message := s!"'{op.text}' on signed narrow width '{w.text}' needs sign handling the masked representation lacks" : Diagnostic }
    |>.note .width w.text |>.note .operator op.text
  | boolCast source target =>
    { kind := .invalidArgument
      message := s!"Booleans are not cast sources or targets ({source.text} -> {target.text})" : Diagnostic }
    |>.note .castFrom source.text |>.note .castTo target.text
  | missingCast source target =>
    { kind := .notImplemented
      message := s!"Cast from '{source.text}' to '{target.text}' is not implemented" : Diagnostic }
    |>.note .castFrom source.text |>.note .castTo target.text
  | boolLiteral text =>
    { kind := .notImplemented
      message := s!"No literal parse rule for width '{Width.bool.text}'" : Diagnostic }
    |>.note .width Width.bool.text |>.note .literal text
  | malformedLiteral w text =>
    { kind := .invalidArgument, message := s!"Malformed integer literal '{text}'" : Diagnostic }
    |>.note .width w.text |>.note .literal text
  | literalRange w text =>
    { kind := .invalidArgument
      message := s!"Literal '{text}' does not fit in {w.text}" : Diagnostic }
    |>.note .width w.text |>.note .literal text
  | recordTooLong budget required =>
    { kind := .scratchOverflow
      message := s!"Debug record needs {required} bytes but the scratch window holds {budget}" : Diagnostic }
    |>.note .budget (toString budget) |>.note .required (toString required)
  | importMisaligned unit owner name type position =>
    { kind := .compiler
      message := s!"Imported function '{owner}.{name}' declares type {type} but sits at function index {position}" : Diagnostic }
    |>.note .unit unit |>.note .symbol name
  | importUntyped unit owner name type known =>
    { kind := .compiler
      message := s!"Imported function '{owner}.{name}' refers to type {type} but only {known} types are known" : Diagnostic }
    |>.note .unit unit |>.note .symbol name
  | typeCount unit types functions =>
    { kind := .compiler
      message := s!"Linker state has {types} types for {functions} imported functions" : Diagnostic }
    |>.note .unit unit
  | unitTypes unit types functions =>
    { kind := .compiler
      message := s!"Unit has {types} types for {functions} functions" : Diagnostic }
    |>.note .unit unit
  | reservedName name unit =>
    { kind := .malformedIr
      message := s!"'{name}' in unit '{unit}' cannot be public, the name is reserved for the data segment size export" : Diagnostic }
    |>.note .symbol name |>.note .unit unit
  | duplicateName name unit =>
    { kind := .malformedIr
      message := s!"'{name}' is declared twice in unit '{unit}'" : Diagnostic }
    |>.note .symbol name |>.note .unit unit
  | unbound sort name => .unbound sort.text name
  | initializerReadsOwn global read =>
    { kind := .malformedIr
      message := s!"Initializer of '{global}' reads '{read}', which is defined in this unit" : Diagnostic }
    |>.note .symbol global |>.note .construct "GlobalVar"
  | initializerNotConstant construct =>
    { kind := .malformedIr
      message := "Global initializer is not a constant expression" : Diagnostic }
    |>.note .construct construct
  | constantOperands op w =>
    { kind := .malformedIr
      message := s!"Operands of constant '{op.text}' do not match width {w.text}" : Diagnostic }
    |>.note .operator op.text |>.note .width w.text
  | constantOperator op w =>
    { kind := .malformedIr
      message := s!"Operator '{op.text}' is not allowed in a global initializer" : Diagnostic }
    |>.note .operator op.text |>.note .width w.text
  | initializerKind global kind w =>
    { kind := .malformedIr
      message := s!"Initializer of '{global}' folds to {kind.label} but the global is {w.text}" : Diagnostic }
    |>.note .symbol global |>.note .width w.text
  | variableRange index args locals =>
    { kind := .malformedIr
      message := s!"Variable {index} is out of range for a frame of {args} arguments and {locals} locals" }
  | elementLoad size =>
    { kind := .notImplemented
      message := s!"Buffer element of {size} bytes cannot be loaded as a scalar" : Diagnostic }
    |>.note .construct "BufRead" |>.note .width (toString size)
  | elementStore size =>
    { kind := .notImplemented
      message := s!"Buffer element of {size} bytes cannot be stored as a scalar" : Diagnostic }
    |>.note .construct "BufWrite" |>.note .width (toString size)
  | unbalanced construct now before =>
    { kind := .malformedIr
      message := s!"{construct} arm leaves {now} open frames where {before} were open on entry" : Diagnostic }
    |>.note .construct construct
  | unmatchedPop =>
    { kind := .malformedIr, message := "PopFrame without a matching PushFrame" : Diagnostic }
    |>.note .construct "PopFrame"
  | unsupported construct =>
    { kind := .unsupportedConstruct
      message := s!"IR construct '{construct}' has no wasm lowering" : Diagnostic }
    |>.note .construct construct
  | manyResults function count =>
    { kind := .malformedIr
      message := s!"Function '{function}' returns {count} values, at most one is supported" : Diagnostic }
    |>.note .function function
  | openFrames function count =>
    { kind := .malformedIr
      message := s!"Function '{function}' ends with {count} frames still open" : Diagnostic }
    |>.note .function function |>.note .construct "PushFrame"
  | invalidModule unit rejection =>
    let d := Diagnostic.validation
      s!"Module failed validation at offset {rejection.offset}: {rejection.cause.text}" unit
    rejection.cause.hint?.elim d (d.note .suggestion)
  | configSyntax => .config "Could not parse config"
  | configNoPages =>
    .config "memory_min_pages must be at least 1, the first page holds the highwater mark"
  | configUnreadable path failure =>
    .config s!"Could not read config file '{path}': {failure.text}"
  | inInitializer global cause => cause.diagnostic.note .symbol global
  | inFunction name cause => cause.diagnostic.noteIfAbsent .function name
  | inUnit name cause => cause.diagnostic.noteIfAbsent .unit name

end Fault

end WasmLowering
