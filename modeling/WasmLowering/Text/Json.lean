/-
# Indented JSON

A JSON value is written with one item per line, two blanks of indentation per
level, and a blank after the colon of a field.  Empty arrays and objects take no
line of their own.  In strings, quotes, backslashes and the characters below the
blank are escaped, with the short forms where they exist and four lower-case
hexadecimal digits otherwise; all other characters stand for themselves.
-/

namespace WasmLowering

/-- A JSON value with natural numbers. -/
inductive Json where
  | bool (b : Bool)
  | num (n : Nat)
  | str (s : String)
  | arr (items : List Json)
  | obj (fields : List (String × Json))
  deriving Repr, Inhabited

namespace Json

/-- The digits of a control character's escape. -/
def escapeDigits (c : Char) : List Char :=
  ['0', '0', Nat.digitChar (c.toNat / 16), Nat.digitChar (c.toNat % 16)]

/-- A character as it stands in a written string. -/
def escape (c : Char) : List Char :=
  if c = '"' then ['\\', '"']
  else if c = '\\' then ['\\', '\\']
  else if c = '\x08' then ['\\', 'b']
  else if c = '\t' then ['\\', 't']
  else if c = '\n' then ['\\', 'n']
  else if c = '\x0c' then ['\\', 'f']
  else if c = '\r' then ['\\', 'r']
  else if c.toNat < 0x20 then '\\' :: 'u' :: escapeDigits c
  else [c]

/-- A string between quotes. -/
def quote (s : String) : String :=
  "\"" ++ String.ofList (s.toList.flatMap escape) ++ "\""

/-- A line break and the indentation of a level. -/
def newline (level : Nat) : String :=
  "\n" ++ String.ofList (List.replicate (2 * level) ' ')

mutual

/-- The text of a value that stands at a level of indentation. -/
def render (level : Nat) : Json → String
  | bool true => "true"
  | bool false => "false"
  | num n => toString n
  | str s => quote s
  | arr [] => "[]"
  | arr (v :: vs) =>
    "[" ++ newline (level + 1) ++ render (level + 1) v ++ renderItems (level + 1) vs
      ++ newline level ++ "]"
  | obj [] => "\x7b\x7d"
  | obj (f :: fs) =>
    "\x7b" ++ newline (level + 1) ++ renderField (level + 1) f ++ renderFields (level + 1) fs
      ++ newline level ++ "\x7d"

/-- The text of the items after the first. -/
def renderItems (level : Nat) : List Json → String
  | [] => ""
  | v :: vs => "," ++ newline level ++ render level v ++ renderItems level vs

/-- The text of a field. -/
def renderField (level : Nat) : String × Json → String
  | (k, v) => quote k ++ ": " ++ render level v

/-- The text of the fields after the first. -/
def renderFields (level : Nat) : List (String × Json) → String
  | [] => ""
  | f :: fs => "," ++ newline level ++ renderField level f ++ renderFields level fs

end

/-- The text of a value. -/
def pretty (v : Json) : String := render 0 v

end Json

end WasmLowering
