/-
# The binary format

A module is written as a header and seven sections, in this order and all of
them always:

| id | section   | items                                       |
|---:|-----------|---------------------------------------------|
|  1 | types     | parameter kinds, result kinds               |
|  2 | imports   | owner, name, entity                         |
|  3 | functions | type index                                  |
|  6 | globals   | kind, constant expression                   |
|  7 | exports   | name, sort, index                           |
| 10 | code      | size, local groups, instructions            |
| 11 | data      | one segment at the address in global `0`    |

A section is its id, its size and its content, and a list of items is their
number and the items.  Numbers are variable-length integers.
-/

import WasmLowering.Layout
import WasmLowering.Wasm.Leb128
import WasmLowering.Wasm.Module
import WasmLowering.Wasm.Opcodes

namespace WasmLowering
namespace Wasm
namespace Encode

/-- The number of items, then each item. -/
def list {α : Type} (item : α → Bytes) (items : List α) : Bytes :=
  Leb128.unsigned items.length ++ items.flatMap item

/-- The number of bytes, then the bytes. -/
def sized (content : Bytes) : Bytes :=
  Leb128.unsigned content.length ++ content

/-- A name, as its UTF-8 bytes. -/
def name (s : String) : Bytes := sized (utf8 s)

/-- A section: its id, then its content with its size. -/
def sect (id : UInt8) (content : Bytes) : Bytes := id :: sized content

/-- Alignment and offset of a memory access. -/
def memArg (arg : MemArg) : Bytes :=
  Leb128.unsigned arg.align ++ Leb128.unsigned arg.offset

/-- A constant instruction. -/
def const : Value → Bytes
  | .i32 w => 0x41 :: Leb128.signed w.toInt
  | .i64 w => 0x42 :: Leb128.signed w.toInt

/-- A plain instruction. -/
def plain : Plain → Bytes
  | .const v => const v
  | .arith k op => [op.opcode k]
  | .compare k rel => [rel.opcode k]
  | .convert c => [c.opcode]
  | .localGet i => 0x20 :: Leb128.unsigned i
  | .localSet i => 0x21 :: Leb128.unsigned i
  | .localTee i => 0x22 :: Leb128.unsigned i
  | .globalGet i => 0x23 :: Leb128.unsigned i
  | .drop => [0x1a]
  | .load op arg => op.opcode :: memArg arg
  | .store op arg => op.opcode :: memArg arg

/-- The mark that closes a block, a body or a constant expression. -/
def finishByte : UInt8 := 0x0b

/-- The byte of a block without results. -/
def noResult : UInt8 := 0x40

/-- The type of a block with at most one result. -/
def blockType : Option Kind → UInt8
  | none => noResult
  | some k => kindByte k

/-- An opcode with its immediates. -/
def opcode : Opcode → Bytes
  | .plain i => plain i
  | .call i => 0x10 :: Leb128.unsigned i
  | .br d => 0x0c :: Leb128.unsigned d
  | .cond result => [0x04, blockType result]
  | .loop => [0x03, noResult]
  | .otherwise => [0x05]
  | .finish => [finishByte]

/-- A sequence of instructions. -/
def code (c : Code) : Bytes := c.flatten.flatMap opcode

/-- A constant expression. -/
def constExpr : ConstExpr → Bytes
  | .const v => const v ++ [finishByte]
  | .globalGet i => 0x23 :: Leb128.unsigned i ++ [finishByte]

/-- The type of a function. -/
def funcType (t : FuncType) : Bytes :=
  0x60 :: list (fun k => [kindByte k]) t.params ++ list (fun k => [kindByte k]) t.results

/-- What an import brings in.  Globals never change and memories have no maximum. -/
def entity : Entity → Bytes
  | .function type => 0x00 :: Leb128.unsigned type
  | .memory minPages => 0x02 :: 0x00 :: Leb128.unsigned minPages
  | .global kind => [0x03, kindByte kind, 0x00]

/-- An import. -/
def importEntry (i : Import) : Bytes := name i.owner ++ name i.name ++ entity i.entity

/-- A defined global. -/
def globalDef (g : GlobalDef) : Bytes := kindByte g.kind :: 0x00 :: constExpr g.init

/-- The byte of an export's sort. -/
def exportSort : ItemSort → UInt8
  | .function => 0x00
  | .table => 0x01
  | .memory => 0x02
  | .global => 0x03
  | .tag => 0x04

/-- An export. -/
def exportEntry (e : Export) : Bytes := name e.name ++ exportSort e.sort :: Leb128.unsigned e.index

/-- Runs of equal kinds, with their lengths. -/
def runs : List Kind → List (Nat × Kind)
  | [] => []
  | k :: ks =>
    match runs ks with
    | [] => [(1, k)]
    | (n, k') :: rest => if k = k' then (n + 1, k) :: rest else (1, k) :: (n, k') :: rest

/-- The body of a function with its size. -/
def body (b : FuncBody) : Bytes :=
  sized (list (fun r => Leb128.unsigned r.1 ++ [kindByte r.2]) (runs b.locals) ++ code b.code
    ++ [finishByte])

/-- A data segment at the address in the first global. -/
def segment (data : Bytes) : Bytes :=
  0x00 :: constExpr (.globalGet Layout.dataStartGlobal) ++ sized data

/-- The bytes every module starts with: a magic number and the version. -/
def header : Bytes := [0x00, 0x61, 0x73, 0x6d, 0x01, 0x00, 0x00, 0x00]

end Encode

/-- The bytes of a module. -/
def Module.encode (m : Module) : Bytes :=
  Encode.header
    ++ Encode.sect 1 (Encode.list Encode.funcType m.types)
    ++ Encode.sect 2 (Encode.list Encode.importEntry m.imports)
    ++ Encode.sect 3 (Encode.list Leb128.unsigned m.functions)
    ++ Encode.sect 6 (Encode.list Encode.globalDef m.globals)
    ++ Encode.sect 7 (Encode.list Encode.exportEntry m.exports)
    ++ Encode.sect 10 (Encode.list Encode.body m.bodies)
    ++ Encode.sect 11 (Encode.list Encode.segment [m.data])

end Wasm
end WasmLowering
