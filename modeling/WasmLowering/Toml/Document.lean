/-
# TOML documents

A document is a sequence of lines: blank lines, comments, headers, and keys with
values, the last belonging to the table of the header before them.  Arrays and
inline tables may span lines, hold comments, and end in a comma; in an inline
table the key, the equals sign and the value may stand on lines of their own.
Values are nested, and keys dotted, to a bounded depth.

A reader takes the front of a text and gives what follows, or nothing if the
text is not well formed.
-/

import WasmLowering.Toml.Quoted
import WasmLowering.Toml.Table

namespace WasmLowering
namespace Toml

/-- Takes the front of a text. -/
abbrev Reader (α : Type) := List Char → Option (α × List Char)

namespace Document

/-- Leaves out blanks. -/
def skipBlanks (cs : List Char) : List Char := cs.dropWhile fun c => c = ' ' || c = '\t'

/-- Leaves out blanks, line breaks and comments; `comment` says that a comment is open. -/
def skipLines (comment : Bool) : List Char → Option (List Char)
  | '\n' :: cs => skipLines false cs
  | '\r' :: '\n' :: cs => skipLines false cs
  | c :: cs =>
    if comment then
      if Quoted.isTextChar c then skipLines true cs else none
    else if c = '#' then skipLines true cs
    else if c = ' ' || c = '\t' then skipLines false cs
    else some (c :: cs)
  | [] => some []

/-- Leaves out the rest of a line, which holds nothing but blanks and a comment. -/
def endLine (comment : Bool) : List Char → Option (List Char)
  | '\n' :: cs => some cs
  | '\r' :: '\n' :: cs => some cs
  | c :: cs =>
    if comment then
      if Quoted.isTextChar c then endLine true cs else none
    else if c = '#' then endLine true cs
    else if c = ' ' || c = '\t' then endLine false cs
    else none
  | [] => some []

/-- Whether a character may stand in a key without quotes. -/
def isKeyChar (c : Char) : Bool := c.isAlphanum || c = '_' || c = '-'

/-- One part of a key. -/
def keyPart : Reader String := fun cs =>
  match cs.takeWhile isKeyChar with
  | [] => (Quoted.line? cs).map fun r => (String.ofList r.1, r.2)
  | part => some (String.ofList part, cs.dropWhile isKeyChar)

/-- At most `limit` parts of a key, separated by dots. -/
def keyUpTo : (limit : Nat) → Reader (List String)
  | 0, _ => none
  | limit + 1, cs => do
    let (part, rest) ← keyPart cs
    match skipBlanks rest with
    | '.' :: rest => do
      let (parts, rest) ← keyUpTo limit (skipBlanks rest)
      return (part :: parts, rest)
    | rest => return ([part], rest)

/-- The depth to which arrays and inline tables may be nested, and the parts that a key may have. -/
def maxDepth : Nat := 80

/-- A key: the parts before its last part, its last part, and what follows the blanks after it. -/
def key : Reader (List String × String) := fun cs => do
  let (parts, rest) ← keyUpTo maxDepth cs
  return ((parts.dropLast, ← parts.getLast?), rest)

/-- A key, an equals sign and a value; `skip` leaves out what may stand around the sign. -/
def keyValue (skip : List Char → Option (List Char)) (value : Reader Node) :
    Reader ((List String × String) × Node) := fun cs => do
  let (k, rest) ← key cs
  match ← skip rest with
  | '=' :: rest => do
    let (v, rest) ← value (← skip rest)
    return ((k, v), rest)
  | _ => none

/-- At most `limit` items of an array, to its closing bracket. -/
def arrayUpTo (value : Reader Node) : (limit : Nat) → Reader (List Node)
  | 0, _ => none
  | limit + 1, cs => do
    match ← skipLines false cs with
    | ']' :: rest => return ([], rest)
    | cs =>
      let (v, rest) ← value cs
      match ← skipLines false rest with
      | ',' :: rest => do
        let (vs, rest) ← arrayUpTo value limit rest
        return (v :: vs, rest)
      | ']' :: rest => return ([v], rest)
      | _ => none

/-- At most `limit` fields of an inline table, to its closing brace, added to the fields at hand. -/
def inlineUpTo (value : Reader Node) : (limit : Nat) → Fields → Reader Fields
  | 0, _, _ => none
  | limit + 1, fields, cs => do
    match ← skipLines false cs with
    | '\x7d' :: rest => return (fields, rest)
    | cs =>
      let (((path, k), v), rest) ← keyValue (skipLines false) value cs
      let (_, fields) ← fields.addKey path k v .explicit
      match ← skipLines false rest with
      | ',' :: rest => inlineUpTo value limit fields rest
      | '\x7d' :: rest => return (fields, rest)
      | _ => none

/-- A value in which arrays and inline tables are nested at most `depth` deep. -/
def value : (depth : Nat) → Reader Node
  | 0, cs => flat cs
  | depth + 1, cs =>
    match cs with
    | '[' :: rest => (arrayUpTo (value depth) cs.length rest).map fun r => (.array r.1, r.2)
    | '\x7b' :: rest =>
      (inlineUpTo (value depth) cs.length [] rest).map fun r => (.table .inline r.1, r.2)
    | cs => flat cs
where
  /-- A value without parts. -/
  flat : Reader Node := fun cs =>
    match Quoted.any? cs with
    | some (text, rest) => some (.scalar (.string (String.ofList text)), rest)
    | none => (Scalar.bare? (Scalar.span cs).1).map fun s => (.scalar s, (Scalar.span cs).2)

/-- A document as far as it is read: its fields, and the path of the table that lines belong to. -/
structure Progress where
  root : Fields
  current : List String

/-- Takes a header after its opening brackets; `closing` are the brackets that close it. -/
def header (opening : String → Form → Fields → Option (Form × Fields)) (closing : List Char)
    (p : Progress) : Reader Progress := fun cs => do
  let ((path, k), rest) ← key (skipBlanks cs)
  guard (closing.isPrefixOf rest)
  let (_, root) ← p.root.descend false (opening k) path .explicit
  return (⟨root, path ++ [k]⟩, rest.drop closing.length)

/-- Takes a key with a value. -/
def assignment (p : Progress) : Reader Progress := fun cs => do
  let (((path, k), v), rest) ← keyValue (some ∘ skipBlanks) (value maxDepth) cs
  let (_, root) ← p.root.descend false (Fields.addKey path k v) p.current .explicit
  return ({ p with root }, rest)

/-- Takes a header or a key with a value. -/
def statement (p : Progress) : Reader Progress := fun cs =>
  match cs with
  | '[' :: '[' :: rest => header Fields.openNext [']', ']'] p rest
  | '[' :: rest => header Fields.openTable [']'] p rest
  | cs => assignment p cs

/-- Takes at most `limit` statements, to the end of the text. -/
def statementsUpTo : (limit : Nat) → Progress → List Char → Option Fields
  | 0, _, _ => none
  | limit + 1, p, cs => do
    match ← skipLines false cs with
    | [] => return p.root
    | cs =>
      let (p, rest) ← statement p cs
      statementsUpTo limit p (← endLine false rest)

/-- Leaves out a byte order mark at the front. -/
def skipMark : List Char → List Char
  | '\ufeff' :: cs => cs
  | cs => cs

/-- The fields of a document: a statement takes a character. -/
def parse? (text : String) : Option Fields :=
  let cs := skipMark text.toList
  statementsUpTo (cs.length + 1) ⟨[], []⟩ cs

end Document

end Toml
end WasmLowering
