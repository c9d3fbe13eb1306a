/-
# Diagnostics

`CompilerError`, `ErrorType` and `ErrorMetaDataKey`.

A diagnostic is what a failed compilation reports: a kind, a message and notes.
A note has a key that says what its text is about, and each key has at most one
text.  A diagnostic is written as its title and message, then one indented line
per note in the order of the keys.
-/

namespace WasmLowering

/-- The kind of a diagnostic. -/
inductive FaultKind where
  | unsupportedConstruct
  | notImplemented
  | invalidArgument
  | scratchOverflow
  | unboundSymbol
  | malformedIr
  | validation
  | config
  | compiler
  deriving DecidableEq, Repr, Inhabited

/-- The title under which a kind is reported. -/
def FaultKind.title : FaultKind → String
  | unsupportedConstruct => "Unsupported Construct"
  | notImplemented => "Not Implemented"
  | invalidArgument => "Invalid Argument"
  | scratchOverflow => "Debug Scratch Overflow"
  | unboundSymbol => "Unbound Symbol"
  | malformedIr => "Malformed IR"
  | validation => "Wasm Validation"
  | config => "Malformed Config"
  | compiler => "Compiler Bug"

/-- What a note is about. -/
inductive NoteKey where
  | stage
  | unit
  | function
  | symbol
  | construct
  | width
  | operator
  | castFrom
  | castTo
  | literal
  | budget
  | required
  | suggestion
  deriving DecidableEq, Repr, Inhabited

namespace NoteKey

/-- The label of a key in a written diagnostic. -/
def label : NoteKey → String
  | stage => "CompilationStage"
  | unit => "UnitName"
  | function => "FunctionName"
  | symbol => "SymbolName"
  | construct => "Construct"
  | width => "Width"
  | operator => "Operator"
  | castFrom => "CastFrom"
  | castTo => "CastTo"
  | literal => "Literal"
  | budget => "Budget"
  | required => "Required"
  | suggestion => "PrimarySuggestion"

/-- All keys, in the order in which notes are written. -/
def all : List NoteKey :=
  [stage, unit, function, symbol, construct, width, operator, castFrom, castTo, literal, budget,
    required, suggestion]

end NoteKey

/-- The notes of a diagnostic: at most one text per key. -/
abbrev Notes := NoteKey → Option String

/-- A report of a failure. -/
structure Diagnostic where
  kind : FaultKind
  message : String
  notes : Notes := fun _ => none
  deriving Inhabited

namespace Diagnostic

/-- Sets a note, whatever was noted before. -/
def note (d : Diagnostic) (key : NoteKey) (text : String) : Diagnostic :=
  { d with notes := fun k => if k = key then some text else d.notes k }

/-- Sets a note unless its key has one. -/
def noteIfAbsent (d : Diagnostic) (key : NoteKey) (text : String) : Diagnostic :=
  if (d.notes key).isSome then d else d.note key text

/-- **A note that is set is there.** -/
@[simp] theorem note_notes_self (d : Diagnostic) (key : NoteKey) (text : String) :
    (d.note key text).notes key = some text := by
  simp [note]

/-- **Setting a note leaves the notes of other keys.** -/
@[simp] theorem note_notes_of_ne (d : Diagnostic) {key k : NoteKey} (text : String) (h : k ≠ key) :
    (d.note key text).notes k = d.notes k := by
  simp [note, h]

/-- **A first note stays.**  A later one under the same key counts only if there was none. -/
theorem noteIfAbsent_notes_self (d : Diagnostic) (key : NoteKey) (text : String) :
    (d.noteIfAbsent key text).notes key = some ((d.notes key).getD text) := by
  unfold noteIfAbsent
  cases h : d.notes key <;> simp [h]

/-- The notes that are set, in the order of the keys. -/
def entries (d : Diagnostic) : List (NoteKey × String) :=
  NoteKey.all.filterMap fun k => (d.notes k).map (k, ·)

/-- The written diagnostic: `Title: message`, then one line `  Key: text` per note. -/
def render (d : Diagnostic) : String :=
  d.entries.foldl (fun out e => out ++ "\n  " ++ e.1.label ++ ": " ++ e.2)
    (d.kind.title ++ ": " ++ d.message)

/-- A symbol of some sort that no scope binds. -/
def unbound (sort name : String) : Diagnostic :=
  { kind := .unboundSymbol
    message := s!"Unbound {sort} '{name}': not defined in this unit or any unit linked before it" :
    Diagnostic }.note .symbol name

/-- A module that validation refuses. -/
def validation (message unit : String) : Diagnostic :=
  ({ kind := .validation, message } : Diagnostic).note .unit unit |>.note .stage "Validation"

/-- A configuration that cannot be used. -/
def config (message : String) : Diagnostic :=
  ({ kind := .config, message } : Diagnostic).note .stage "Config"

end Diagnostic

end WasmLowering
