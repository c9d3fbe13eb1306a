/-
# Names of parts

The imports and exports of a component have names of several forms.

| form                         | names                              |
|------------------------------|------------------------------------|
| `a-label`                    | anything                           |
| `[constructor]r`             | a function that makes a resource   |
| `[method]r.f`, `[static]r.f` | a function that goes with a resource |
| `ns:pkg/interface@1.0.0`     | an interface                       |
| `unlocked-dep=<…>`, `locked-dep=<…>`, `url=<…>`, `integrity=<…>` | where a part is found; imports only |

A label is words of letters and digits with hyphens between them.  The letters of
a word are all small or all capital, and the first word starts with a letter.
Labels that differ only in that are the same.
-/

import WasmLowering.Text.Blank
import WasmLowering.Wasm.Component.Version

namespace WasmLowering
namespace Wasm

/-- Whether a text is a label; `letters` tells of the case of the word at hand, if it has letters, and
`started` whether the word has characters. -/
def isLabelFrom (isFirst : Bool) (letters : Option Bool) (started : Bool) : List Char → Bool
  | [] => started
  | c :: cs =>
    if c.isLower then letters != some true && isLabelFrom isFirst (some false) true cs
    else if c.isUpper then letters != some false && isLabelFrom isFirst (some true) true cs
    else if c.isDigit then (!isFirst || letters.isSome) && isLabelFrom isFirst letters true cs
    else c == '-' && started && isLabelFrom false none false cs

/-- Whether a text is a label. -/
def isLabel (s : String) : Bool := isLabelFrom true none false s.toList

/-- The name of a part. -/
inductive ExternName where
  | label (word : String)
  | constructor (resource : String)
  | method (resource function : String)
  | static (resource function : String)
  | interface (text : String)
  /-- Where a part is found. -/
  | location (text : String)
  deriving DecidableEq, Repr

/-- Why a text is no name. -/
inductive NameFault where
  | notLabel (text : String)
  | missingChar (c : Char)
  | expected (token rest : String)
  | noInterface
  | notLower (c : Char)
  | badVersion (text : String) (fault : Version.Fault)
  | noUpperBound
  | noRange
  | urlBracket
  | unknownHash (text : String)
  | hashWithoutDash (text : String)
  | notBase64 (text : String)
  | noHash
  | leftover (text : String)
  deriving DecidableEq, Repr

/-- The wording of a fault. -/
def NameFault.text : NameFault → String
  | notLabel s => s!"`{s}` is not in kebab case"
  | missingChar c => "failed to find `" ++ c.toString ++ "` character"
  | expected token rest => s!"expected `{token}` at `{rest}`"
  | noInterface => "expected `/` after package name"
  | notLower c => "character `" ++ c.toString ++ "` is not lowercase in package name/namespace"
  | badVersion s fault => s!"`{s}` is not a valid semver: " ++ fault.text
  | noUpperBound => "expected `<` at start of version range upper bounds"
  | noRange => "expected `>=` or `<` at start of version range"
  | urlBracket => "url cannot contain `<`"
  | unknownHash s => s!"unrecognized hash algorithm: `{s}`"
  | hashWithoutDash s => s!"expected `-` after hash algorithm: {s}"
  | notBase64 s => s!"not valid base64: `{s}`"
  | noHash => "integrity hash cannot be empty"
  | leftover s => s!"trailing characters found: `{s}`"

namespace ExternName

/-- A computation that takes characters from the front of a name. -/
abbrev Parser := StateT (List Char) (Except NameFault)

/-- Takes a token, if it follows. -/
def eat (token : String) : Parser Bool := do
  let cs ← get
  if token.toList.isPrefixOf cs then
    set (cs.drop token.length)
    return true
  return false

/-- Takes a token. -/
def expect (token : String) : Parser Unit := do
  unless ← eat token do throw (.expected token (String.ofList (← get)))

/-- Takes characters that have a property. -/
def takeWhile (p : Char → Bool) : Parser String := do
  let cs ← get
  set (cs.dropWhile p)
  return String.ofList (cs.takeWhile p)

/-- Takes what stands before a character, if it follows. -/
def before? (c : Char) : Parser (Option String) := do
  if (← get).contains c then return some (← takeWhile (· ≠ c))
  return none

/-- Takes what stands before a character. -/
def before (c : Char) : Parser String := do
  match ← before? c with
  | some s => return s
  | none => throw (.missingChar c)

/-- Takes all that is left. -/
def rest : Parser String := takeWhile fun _ => true

/-- A text that is a label. -/
def checkLabel (s : String) : Parser String := do
  unless isLabel s do throw (.notLabel s)
  return s

/-- Takes a label within a name. -/
def takeLabel : Parser String := do
  checkLabel (← takeWhile fun c => c.isAlphanum || c = '-')

/-- Takes a label of small letters. -/
def takeLower : Parser Unit := do
  let s ← takeLabel
  if let some c := s.toList.find? Char.isUpper then throw (.notLower c)

/-- Checks a version. -/
def version (s : String) : Parser Unit := do
  match Version.check s.toList with
  | .ok () => return ()
  | .error fault => throw (.badVersion s fault)

/-- Takes the path of a package, and perhaps of an interface of it. -/
def path (needsInterface : Bool) : Parser Unit := do
  takeLower
  expect ":"
  takeLower
  if ← eat "/" then
    let _ ← takeLabel
  else if needsInterface then throw .noInterface

/-- Takes the name of a package, and perhaps of an interface of it, with an optional version. -/
def package (needsInterface : Bool) : Parser Unit := do
  path needsInterface
  if ← eat "@" then
    match ← before? '>' with
    | some s => version s
    | none => version (← rest)

/-- A text without a token at its front. -/
def without? (token s : String) : Option String :=
  if token.toList.isPrefixOf s.toList then some (String.ofList (s.toList.drop token.length)) else none

/-- Checks the upper bound of a range of versions. -/
def upperBound (s : String) : Parser Unit := do
  match without? "<" s with
  | some s => version s
  | none => throw .noUpperBound

/-- Checks a range of versions. -/
def range (s : String) : Parser Unit := do
  if s = "*" then return ()
  match without? ">=" s with
  | some bounds =>
    let cs := bounds.toList
    version (String.ofList (cs.takeWhile (· ≠ ' ')))
    if cs.contains ' ' then upperBound (String.ofList ((cs.dropWhile (· ≠ ' ')).drop 1))
  | none =>
    match without? "<" s with
    | some s => version s
    | none => throw .noRange

/-- Takes the name of a package with an optional range of versions. -/
def packageRange : Parser Unit := do
  path false
  if ← eat "@" then
    unless ← eat "*" do
      expect "\x7b"
      let s ← before '\x7d'
      expect "\x7d"
      range s

/-- Whether a character is a digit of base 64. -/
def isDigit64 (c : Char) : Bool := c.isAlphanum || c = '+' || c = '/'

/-- Whether a text is written in base 64: digits, then at most two equals signs. -/
def isBase64 (cs : List Char) : Bool :=
  let signs := cs.dropWhile isDigit64
  !(cs.takeWhile isDigit64).isEmpty && signs.length ≤ 2 && signs.all (· = '=')

/-- Checks a hash: the name of its algorithm, a hyphen and the hash. -/
def hash (s : String) : Parser Unit := do
  match (["sha256", "sha384", "sha512"].findSome? fun algorithm => without? algorithm s) with
  | none => throw (.unknownHash s)
  | some s' =>
    match without? "-" s' with
    | none => throw (.hashWithoutDash s)
    | some digits =>
      let digits := digits.toList.takeWhile (· ≠ '?')
      unless isBase64 digits do throw (.notBase64 (String.ofList digits))

/-- The words of a text between blanks. -/
def words (s : String) : List String :=
  ((s.toList.splitBy fun a b => !Text.isBlank a && !Text.isBlank b).filter
    fun w => !w.all Text.isBlank).map String.ofList

/-- Takes hashes up to a closing bracket. -/
def hashes : Parser Unit := do
  let found := words (← before '>')
  found.forM hash
  if found.isEmpty then throw .noHash
  expect ">"

/-- Takes hashes after a comma, if it follows. -/
def optionalHashes : Parser Unit := do
  if ← eat "," then
    expect "integrity=<"
    hashes

/-- Takes a resource and a function that goes with it. -/
def member : Parser (String × String) := do
  let resource ← checkLabel (← before '.')
  expect "."
  return (resource, ← checkLabel (← rest))

/-- Takes where a part is found, if its mark follows. -/
def location? : Parser Bool := do
  if ← eat "unlocked-dep=" then
    expect "<"
    packageRange
    expect ">"
    return true
  if ← eat "locked-dep=" then
    expect "<"
    package false
    expect ">"
    optionalHashes
    return true
  if ← eat "url=" then
    expect "<"
    if (← before '>').contains '<' then throw .urlBracket
    expect ">"
    optionalHashes
    return true
  if ← eat "integrity=" then
    expect "<"
    hashes
    return true
  return false

/-- Takes a name. -/
def parser (text : String) : Parser ExternName := do
  if ← eat "[constructor]" then return .constructor (← checkLabel (← rest))
  if ← eat "[method]" then
    let (r, f) ← member
    return .method r f
  if ← eat "[static]" then
    let (r, f) ← member
    return .static r f
  if ← location? then return .location text
  if (← get).contains ':' then
    package true
    return .interface text
  return .label (← checkLabel (← rest))

/-- The name that a text is. -/
def ofText (text : String) : Except NameFault ExternName := do
  let (name, left) ← (parser text).run text.toList
  unless left.isEmpty do throw (.leftover (String.ofList left))
  return name

/-- What tells a name from others: two names of the same key cannot stand side by side.  A function that
is called like its resource is named like a label. -/
def key : ExternName → String
  | label w => w.toLower
  | constructor r => "[constructor]" ++ r.toLower
  | method r f | static r f =>
    if r.toLower = f.toLower then f.toLower else r.toLower ++ "." ++ f.toLower
  | interface s | location s => s

end ExternName

end Wasm
end WasmLowering
