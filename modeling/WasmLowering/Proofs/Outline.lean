/-
# The outline of a module

The binary format read on its own: what a decoder needs to know to find the items
of a module, and no more.  Numbers are of any size, and names and lists of any
length, so there is no limit that a module could exceed.

| section   | items of the outline                           |
|-----------|------------------------------------------------|
| types     | parameter kinds, result kinds                  |
| imports   | owner, name, and what is brought in            |
| functions | index of the type                              |
| globals   | kind, and the constant expression              |
| exports   | name, sort and index                           |
| code      | the bytes of a body, behind its size           |
| data      | the expression for the address, and the bytes  |

All seven sections are there, in this order, and each is as long as its size says.
The bytes of a module decode to its parts (`Module.decode_encode`).
-/

import WasmLowering.Proofs.Framing

namespace WasmLowering

/-- An import as it is written: whether its owner exports it is not. -/
structure ImportEntry where
  owner : String
  name : String
  entity : Entity
  deriving DecidableEq, Repr

/-- What is written of an import. -/
def Import.entry (i : Import) : ImportEntry := ⟨i.owner, i.name, i.entity⟩

namespace Wasm

/-! ## Decoding -/

/-- A computation that takes bytes from the front, if they are as it wants them. -/
abbrev Decoder := StateT Bytes Option

/-- The items of a module, as far as they can be told apart without looking into code. -/
structure Outline where
  types : List FuncType
  imports : List ImportEntry
  functions : List Nat
  globals : List GlobalDef
  exports : List Export
  /-- The bytes of the bodies. -/
  bodies : List Bytes
  /-- The data segments, each behind its address. -/
  segments : List (ConstExpr × Bytes)
  deriving DecidableEq, Repr

namespace Decoder

/-- Takes one byte. -/
def byte : Decoder UInt8
  | [] => none
  | b :: bs => some (b, bs)

/-- Takes one byte, which has to be a certain one. -/
def expect (b : UInt8) : Decoder Unit := do
  unless (← byte) = b do failure

/-- Takes a natural number, to the first byte whose top bit is not set. -/
def natural : Decoder Nat
  | [] => none
  | b :: bs =>
    if b.toNat < 128 then some (b.toNat, bs)
    else (natural bs).map fun p => (b.toNat - 128 + 128 * p.1, p.2)

/-- Takes an integer in two's complement, to the first byte whose top bit is not set. -/
def integer : Decoder Int
  | [] => none
  | b :: bs =>
    if b.toNat < 128 then some (Reader.low7 b.toNat, bs)
    else (integer bs).map fun p => (b.toNat - 128 + 128 * p.1, p.2)

/-- Takes a number of bytes. -/
def take (n : Nat) : Decoder Bytes := fun bs =>
  if n ≤ bs.length then some (bs.take n, bs.drop n) else none

/-- Takes a size and as many bytes. -/
def sized : Decoder Bytes := do take (← natural)

/-- Takes a name. -/
def name : Decoder String := do
  match String.fromUTF8? ⟨(← sized).toArray⟩ with
  | some s => return s
  | none => failure

/-- Takes a number of items. -/
def many {α : Type} (item : Decoder α) : Nat → Decoder (List α)
  | 0 => return []
  | n + 1 => do
    let first ← item
    let rest ← many item n
    return first :: rest

/-- Takes the number of items and the items. -/
def list {α : Type} (item : Decoder α) : Decoder (List α) := do many item (← natural)

/-- What a decoder makes of bytes, if it takes them all. -/
def whole {α : Type} (d : Decoder α) (bytes : Bytes) : Option α :=
  match d bytes with
  | some (a, []) => some a
  | _ => none

/-- Takes a section: its id, its size, and as many bytes, which are to be taken all. -/
def sect {α : Type} (id : UInt8) (content : Decoder α) : Decoder α := do
  expect id
  let bytes ← sized
  match content.whole bytes with
  | some a => return a
  | none => failure

/-! ### Items -/

def kind : Decoder Kind := do
  match ← byte with
  | 0x7f => return .i32
  | 0x7e => return .i64
  | _ => failure

def funcType : Decoder FuncType := do
  expect 0x60
  let params ← list kind
  let results ← list kind
  return ⟨params, results⟩

def entity : Decoder Entity := do
  match ← byte with
  | 0x00 => return .function (← natural)
  | 0x02 => do
    expect 0x00
    return .memory (← natural)
  | 0x03 => do
    let k ← kind
    expect 0x00
    return .global k
  | _ => failure

def importEntry : Decoder ImportEntry := do
  let owner ← name
  let field ← name
  let brought ← entity
  return ⟨owner, field, brought⟩

def constInstr : Decoder ConstExpr := do
  match ← byte with
  | 0x41 => return .const (.i32 (BitVec.ofInt 32 (← integer)))
  | 0x42 => return .const (.i64 (BitVec.ofInt 64 (← integer)))
  | 0x23 => return .globalGet (← natural)
  | _ => failure

def constExpr : Decoder ConstExpr := do
  let e ← constInstr
  expect 0x0b
  return e

def globalDef : Decoder GlobalDef := do
  let k ← kind
  expect 0x00
  let init ← constExpr
  return ⟨k, init⟩

def itemSort : Decoder ItemSort := do
  match ← byte with
  | 0x00 => return .function
  | 0x01 => return .table
  | 0x02 => return .memory
  | 0x03 => return .global
  | 0x04 => return .tag
  | _ => failure

def exportEntry : Decoder Export := do
  let field ← name
  let sort ← itemSort
  let index ← natural
  return ⟨field, sort, index⟩

def segment : Decoder (ConstExpr × Bytes) := do
  expect 0x00
  let address ← constExpr
  let data ← sized
  return (address, data)

def header : Decoder Unit := do
  unless (← take 8) = Encode.header do failure

/-- Takes the header and the sections. -/
def outline : Decoder Outline := do
  header
  let types ← sect 1 (list funcType)
  let imports ← sect 2 (list importEntry)
  let functions ← sect 3 (list natural)
  let globals ← sect 6 (list globalDef)
  let exports ← sect 7 (list exportEntry)
  let bodies ← sect 10 (list sized)
  let segments ← sect 11 (list segment)
  return { types, imports, functions, globals, exports, bodies, segments }

end Decoder

/-- The outline of the module that bytes are, if they are one. -/
def Outline.decode (bytes : Bytes) : Option Outline := Decoder.outline.whole bytes

/-! ## What is written decodes -/

/-- A decoder takes bytes as something, whatever follows them. -/
def Decodes {α : Type} (d : Decoder α) (bytes : Bytes) (a : α) : Prop :=
  ∀ rest, d (bytes ++ rest) = some (a, rest)

namespace Decodes

variable {α β : Type} {d : Decoder α} {bs cs : Bytes} {a : α} {b : β}

theorem pure (a : α) : Decodes (Pure.pure a) [] a := fun _ => rfl

/-- **One decoder after the other** takes the bytes of the one and then those of the other. -/
theorem bind {f : α → Decoder β} (h : Decodes d bs a) (hf : Decodes (f a) cs b) :
    Decodes (d >>= f) (bs ++ cs) b := by
  intro rest
  show (d (bs ++ cs ++ rest) >>= fun p => f p.1 p.2) = _
  rw [List.append_assoc, h (cs ++ rest)]
  exact hf rest

/-- **A decoder that takes nothing** comes after one that does. -/
theorem bindLast {f : α → Decoder β} (h : Decodes d bs a) (hf : Decodes (f a) [] b) :
    Decodes (d >>= f) bs b := by
  have hboth := h.bind hf
  rwa [List.append_nil] at hboth

/-- **The first byte is taken** before the others. -/
theorem byteBind {x : UInt8} {f : UInt8 → Decoder β} (h : Decodes (f x) bs b) :
    Decodes (Decoder.byte >>= f) (x :: bs) b := h

/-- **The byte that is expected** is taken. -/
theorem expectBind {x : UInt8} {f : Unit → Decoder β} (h : Decodes (f ()) bs b) :
    Decodes (Decoder.expect x >>= f) (x :: bs) b := by
  have hexpect : Decodes (Decoder.expect x) [x] () := by
    intro rest
    show (if x = x then (Pure.pure () : Decoder Unit) else failure) rest = _
    rw [if_pos rfl]
    rfl
  exact hexpect.bind h

/-- **Natural numbers decode.** -/
theorem natural (n : Nat) : Decodes Decoder.natural (Leb128.unsigned n) n := by
  intro rest
  fun_induction Leb128.unsigned n with
  | case1 n hn =>
    have hbyte : n.toUInt8.toNat = n := Reads.toNat_toUInt8 (by omega)
    show Decoder.natural (n.toUInt8 :: rest) = _
    rw [Decoder.natural, hbyte, if_pos hn]
  | case2 n hn ih =>
    have hbyte : (n % 128 + 128).toUInt8.toNat = n % 128 + 128 := Reads.toNat_toUInt8 (by omega)
    have hvalue : n % 128 + 128 - 128 + 128 * (n / 128) = n := by omega
    rw [List.cons_append, Decoder.natural, hbyte, if_neg (by omega), ih, Option.map_some, hvalue]

/-- **Integers decode.** -/
theorem integer (n : Int) : Decodes Decoder.integer (Leb128.signed n) n := by
  intro rest
  fun_induction Leb128.signed n with
  | case1 n hn =>
    have hbyte : (n % 128).toNat.toUInt8.toNat = (n % 128).toNat := Reads.toNat_toUInt8 (by omega)
    have hvalue : Reader.low7 (n % 128).toNat = n := by
      unfold Reader.low7
      omega
    show Decoder.integer ((n % 128).toNat.toUInt8 :: rest) = _
    rw [Decoder.integer, hbyte, if_pos (by omega), hvalue]
  | case2 n hn ih =>
    have hbyte : (n % 128 + 128).toNat.toUInt8.toNat = (n % 128 + 128).toNat :=
      Reads.toNat_toUInt8 (by omega)
    have hvalue : ((n % 128 + 128).toNat : Int) - 128 + 128 * (n / 128) = n := by omega
    rw [List.cons_append, Decoder.integer, hbyte, if_neg (by omega), ih, Option.map_some, hvalue]

/-- **Bytes behind their number** are cut out. -/
theorem sized (bytes : Bytes) : Decodes Decoder.sized (Encode.sized bytes) bytes := by
  have htake : Decodes (Decoder.take bytes.length) bytes bytes := by
    intro rest
    have hle : bytes.length ≤ (bytes ++ rest).length := by
      rw [List.length_append]
      omega
    rw [Decoder.take, if_pos hle, List.take_left, List.drop_left]
  exact (natural bytes.length).bind htake

/-- **Names decode.** -/
theorem name (s : String) : Decodes Decoder.name (Encode.name s) s := by
  refine (sized (utf8 s)).bindLast ?_
  have htext : String.fromUTF8? ⟨(utf8 s).toArray⟩ = some s := dif_pos s.isValidUTF8
  rw [htext]
  exact .pure s

section Lists

variable {item : Decoder α} {enc : β → Bytes} {value : β → α}

/-- **Items decode one after the other.** -/
theorem many (h : ∀ x, Decodes item (enc x) (value x)) (xs : List β) :
    Decodes (Decoder.many item xs.length) (xs.flatMap enc) (xs.map value) := by
  induction xs with
  | nil => exact .pure []
  | cons x xs ih =>
    rw [List.flatMap_cons]
    exact (h x).bind (ih.bindLast (.pure _))

/-- **Lists decode.** -/
theorem list (h : ∀ x, Decodes item (enc x) (value x)) (xs : List β) :
    Decodes (Decoder.list item) (Encode.list enc xs) (xs.map value) :=
  (natural xs.length).bind (many h xs)

/-- **Lists decode** to what they are written from if items do. -/
theorem listOf {enc : α → Bytes} (h : ∀ x, Decodes item (enc x) x) (xs : List α) :
    Decodes (Decoder.list item) (Encode.list enc xs) xs := by
  have hlist := list h xs
  rwa [List.map_id'] at hlist

end Lists

/-- **Nothing may follow** what is taken. -/
theorem whole (h : Decodes d bs a) : d.whole bs = some a := by
  have hall := h []
  rw [List.append_nil] at hall
  rw [Decoder.whole, hall]

/-- **A section decodes** if its content does. -/
theorem sect (id : UInt8) (h : Decodes d bs a) : Decodes (Decoder.sect id d) (Encode.sect id bs) a := by
  refine expectBind ((sized bs).bindLast ?_)
  rw [h.whole]
  exact .pure a

/-! ### Items -/

theorem kind (k : Kind) : Decodes Decoder.kind [kindByte k] k := by
  cases k with
  | i32 => exact byteBind (.pure _)
  | i64 => exact byteBind (.pure _)

theorem funcType (t : FuncType) : Decodes Decoder.funcType (Encode.funcType t) t :=
  expectBind ((listOf kind t.params).bind ((listOf kind t.results).bindLast (.pure _)))

theorem entity (e : Entity) : Decodes Decoder.entity (Encode.entity e) e := by
  cases e with
  | function type => exact byteBind ((natural type).bindLast (.pure _))
  | memory minPages => exact byteBind (expectBind ((natural minPages).bindLast (.pure _)))
  | global k => exact byteBind ((kind k).bind (expectBind (.pure _)))

/-- **An import decodes** but for whether its owner exports it. -/
theorem importEntry (i : Import) : Decodes Decoder.importEntry (Encode.importEntry i) i.entry := by
  rw [Encode.importEntry, List.append_assoc]
  exact (name i.owner).bind ((name i.name).bind ((entity i.entity).bindLast (.pure _)))

/-- **A constant expression decodes,** its number from two's complement. -/
theorem constExpr (e : ConstExpr) : Decodes Decoder.constExpr (Encode.constExpr e) e := by
  have hinstr : ∀ bytes, Decodes Decoder.constInstr bytes e →
      Decodes Decoder.constExpr (bytes ++ [Encode.finishByte]) e :=
    fun _ h => h.bind (expectBind (.pure e))
  cases e with
  | const v => cases v with
    | i32 w =>
      refine hinstr _ (byteBind ((integer w.toInt).bindLast ?_))
      rw [BitVec.ofInt_toInt]
      exact .pure _
    | i64 w =>
      refine hinstr _ (byteBind ((integer w.toInt).bindLast ?_))
      rw [BitVec.ofInt_toInt]
      exact .pure _
  | globalGet i => exact hinstr _ (byteBind ((natural i).bindLast (.pure _)))

theorem globalDef (g : GlobalDef) : Decodes Decoder.globalDef (Encode.globalDef g) g :=
  (kind g.kind).bind (expectBind ((constExpr g.init).bindLast (.pure _)))

theorem itemSort (s : ItemSort) : Decodes Decoder.itemSort [Encode.exportSort s] s := by
  cases s <;> exact byteBind (.pure _)

theorem exportEntry (e : Export) : Decodes Decoder.exportEntry (Encode.exportEntry e) e :=
  (name e.name).bind ((itemSort e.sort).bind ((natural e.index).bindLast (.pure _)))

theorem header : Decodes Decoder.header Encode.header () := fun _ => rfl

theorem segment (data : Bytes) :
    Decodes Decoder.segment (Encode.segment data) (.globalGet Layout.dataStartGlobal, data) :=
  expectBind ((constExpr (.globalGet Layout.dataStartGlobal)).bind ((sized data).bindLast (.pure _)))

end Decodes

/-! ## Modules -/

/-- The outline of a module: its parts, with the bodies as bytes. -/
def Module.outline (m : Module) : Outline where
  types := m.types
  imports := m.imports.map Import.entry
  functions := m.functions
  globals := m.globals
  exports := m.exports
  bodies := m.bodies.map Encode.bodyContent
  segments := [(.globalGet Layout.dataStartGlobal, m.data)]

/-- **The bytes of a module decode to its parts.** -/
theorem Module.decode_encode (m : Module) : Outline.decode m.encode = some m.outline := by
  have htypes := (Decodes.listOf .funcType m.types).sect 1
  have himports := (Decodes.list .importEntry m.imports).sect 2
  have hfunctions := (Decodes.listOf .natural m.functions).sect 3
  have hglobals := (Decodes.listOf .globalDef m.globals).sect 6
  have hexports := (Decodes.listOf .exportEntry m.exports).sect 7
  have hbodies := (Decodes.list (fun b => .sized (Encode.bodyContent b)) m.bodies).sect 10
  have hdata := (Decodes.list .segment [m.data]).sect 11
  refine Decodes.whole ?_
  simp only [encode, List.append_assoc]
  exact Decodes.header.bind (htypes.bind (himports.bind (hfunctions.bind (hglobals.bind
    (hexports.bind (hbodies.bind (hdata.bindLast (.pure _))))))))

end Wasm
end WasmLowering
