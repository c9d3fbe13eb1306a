/-
# Names of instructions

The name of each instruction that can be read, by the numbers of its opcode: its
first byte, and the number that follows `fb`, `fc`, `fd` or `fe`.

Names that share their first part are listed once for all of its types; a dash
stands for a number without an instruction.
-/

namespace WasmLowering
namespace Wasm

/-- The numbers of an opcode; `sub` is `0` unless the first byte calls for a second number. -/
structure OpNumber where
  lead : Nat
  sub : Nat
  deriving DecidableEq, Repr

namespace Mnemonic

/-- Names in the order of their numbers, from a first number on. -/
abbrev Names := Nat × List String

/-- Names with a common first part. -/
def each (first : String) (rest : List String) : List String := rest.map (first ++ "." ++ ·)

/-- The comparisons of integers. -/
def intRelations : List String :=
  ["eq", "ne", "lt_s", "lt_u", "gt_s", "gt_u", "le_s", "le_u", "ge_s", "ge_u"]

/-- The comparisons of floats. -/
def floatRelations : List String := ["eq", "ne", "lt", "gt", "le", "ge"]

/-- The operations on integers. -/
def intOperations : List String :=
  ["clz", "ctz", "popcnt", "add", "sub", "mul", "div_s", "div_u", "rem_s", "rem_u", "and", "or",
    "xor", "shl", "shr_s", "shr_u", "rotl", "rotr"]

/-- The operations on floats. -/
def floatOperations : List String :=
  ["abs", "neg", "ceil", "floor", "trunc", "nearest", "sqrt", "add", "sub", "mul", "div", "min",
    "max", "copysign"]

/-- The names of the opcodes of one byte. -/
def plain : List Names :=
  [ (0x00, ["unreachable", "nop", "block", "loop", "if", "else", "try", "catch", "throw", "rethrow",
      "throw_ref", "end", "br", "br_if", "br_table", "return", "call", "call_indirect",
      "return_call", "return_call_indirect", "call_ref", "return_call_ref"])
  , (0x18, ["delegate", "catch_all", "drop", "select", "typed_select"])
  , (0x1f, ["try_table", "local.get", "local.set", "local.tee", "global.get", "global.set",
      "table.get", "table.set"])
  , (0x28, ["i32.load", "i64.load", "f32.load", "f64.load", "i32.load8_s", "i32.load8_u",
      "i32.load16_s", "i32.load16_u", "i64.load8_s", "i64.load8_u", "i64.load16_s",
      "i64.load16_u", "i64.load32_s", "i64.load32_u", "i32.store", "i64.store", "f32.store",
      "f64.store", "i32.store8", "i32.store16", "i64.store8", "i64.store16", "i64.store32",
      "memory.size", "memory.grow", "i32.const", "i64.const", "f32.const", "f64.const"])
  , (0x45, each "i32" ("eqz" :: intRelations) ++ each "i64" ("eqz" :: intRelations)
      ++ each "f32" floatRelations ++ each "f64" floatRelations
      ++ each "i32" intOperations ++ each "i64" intOperations
      ++ each "f32" floatOperations ++ each "f64" floatOperations)
  , (0xa7, ["i32.wrap_i64", "i32.trunc_f32_s", "i32.trunc_f32_u", "i32.trunc_f64_s",
      "i32.trunc_f64_u", "i64.extend_i32_s", "i64.extend_i32_u", "i64.trunc_f32_s",
      "i64.trunc_f32_u", "i64.trunc_f64_s", "i64.trunc_f64_u", "f32.convert_i32_s",
      "f32.convert_i32_u", "f32.convert_i64_s", "f32.convert_i64_u", "f32.demote_f64",
      "f64.convert_i32_s", "f64.convert_i32_u", "f64.convert_i64_s", "f64.convert_i64_u",
      "f64.promote_f32", "i32.reinterpret_f32", "i64.reinterpret_f64", "f32.reinterpret_i32",
      "f64.reinterpret_i64", "i32.extend8_s", "i32.extend16_s", "i64.extend8_s", "i64.extend16_s",
      "i64.extend32_s"])
  , (0xd0, ["ref.null", "ref.is_null", "ref.func", "ref.eq", "ref.as_non_null", "br_on_null",
      "br_on_non_null"])
  , (0xe0, ["cont.new", "cont.bind", "suspend", "resume", "resume_throw", "resume_throw_ref",
      "switch"]) ]

/-- The names of the opcodes that follow `fb`. -/
def managed : List Names :=
  [ (0x00, each "struct" ["new", "new_default", "get", "get_s", "get_u", "set"]
      ++ each "array" ["new", "new_default", "new_fixed", "new_data", "new_elem", "get", "get_s",
        "get_u", "set", "len", "fill", "copy", "init_data", "init_elem"]
      ++ ["ref.test_non_null", "ref.test_nullable", "ref.cast_non_null", "ref.cast_nullable",
        "br_on_cast", "br_on_cast_fail", "any.convert_extern", "extern.convert_any", "ref.i31",
        "i31.get_s", "i31.get_u"])
  , (0x20, ["struct.new_desc", "struct.new_default_desc", "ref.get_desc",
      "ref.cast_desc_eq_non_null", "ref.cast_desc_eq_nullable", "br_on_cast_desc_eq",
      "br_on_cast_desc_eq_fail"]) ]

/-- The names of the opcodes that follow `fc`. -/
def bulk : List Names :=
  [ (0x00, each "i32" ["trunc_sat_f32_s", "trunc_sat_f32_u", "trunc_sat_f64_s", "trunc_sat_f64_u"]
      ++ each "i64" ["trunc_sat_f32_s", "trunc_sat_f32_u", "trunc_sat_f64_s", "trunc_sat_f64_u"]
      ++ ["memory.init", "data.drop", "memory.copy", "memory.fill", "table.init", "elem.drop",
        "table.copy", "table.grow", "table.size", "table.fill", "memory.discard", "i64.add128",
        "i64.sub128", "i64.mul_wide_s", "i64.mul_wide_u"]) ]

/-- The operations on the lanes of a vector of small integers, up to the widening sums. -/
def laneOperations (narrow : String) : List String :=
  ["all_true", "bitmask", "narrow_" ++ narrow ++ "_s", "narrow_" ++ narrow ++ "_u"]

/-- The operations that widen the lanes of a vector. -/
def widening (operation lanes : String) : List String :=
  [operation ++ "_low_" ++ lanes ++ "_s", operation ++ "_high_" ++ lanes ++ "_s",
    operation ++ "_low_" ++ lanes ++ "_u", operation ++ "_high_" ++ lanes ++ "_u"]

/-- Sums and differences of lanes. -/
def laneSums : List String :=
  ["shl", "shr_s", "shr_u", "add", "add_sat_s", "add_sat_u", "sub", "sub_sat_s", "sub_sat_u"]

/-- The operations on the lanes of a vector of floats. -/
def floatLanes : List String :=
  ["abs", "neg", "-", "sqrt", "add", "sub", "mul", "div", "min", "max", "pmin", "pmax"]

/-- The names of the opcodes that follow `fd`. -/
def vector : List Names :=
  [ (0x00, each "v128" ["load", "load8x8_s", "load8x8_u", "load16x4_s", "load16x4_u",
        "load32x2_s", "load32x2_u", "load8_splat", "load16_splat", "load32_splat", "load64_splat",
        "store", "const"]
      ++ ["i8x16.shuffle", "i8x16.swizzle", "i8x16.splat", "i16x8.splat", "i32x4.splat",
        "i64x2.splat", "f32x4.splat", "f64x2.splat"]
      ++ each "i8x16" ["extract_lane_s", "extract_lane_u", "replace_lane"]
      ++ each "i16x8" ["extract_lane_s", "extract_lane_u", "replace_lane"]
      ++ each "i32x4" ["extract_lane", "replace_lane"] ++ each "i64x2" ["extract_lane", "replace_lane"]
      ++ each "f32x4" ["extract_lane", "replace_lane"] ++ each "f64x2" ["extract_lane", "replace_lane"]
      ++ each "i8x16" intRelations ++ each "i16x8" intRelations ++ each "i32x4" intRelations
      ++ each "f32x4" floatRelations ++ each "f64x2" floatRelations
      ++ each "v128" ["not", "and", "andnot", "or", "xor", "bitselect", "any_true", "load8_lane",
        "load16_lane", "load32_lane", "load64_lane", "store8_lane", "store16_lane", "store32_lane",
        "store64_lane", "load32_zero", "load64_zero"]
      ++ ["f32x4.demote_f64x2_zero", "f64x2.promote_low_f32x4"]
      ++ each "i8x16" (["abs", "neg", "popcnt"] ++ laneOperations "i16x8")
      ++ each "f32x4" ["ceil", "floor", "trunc", "nearest"]
      ++ each "i8x16" laneSums ++ ["f64x2.ceil", "f64x2.floor"]
      ++ each "i8x16" ["min_s", "min_u", "max_s", "max_u"] ++ ["f64x2.trunc", "i8x16.avgr_u",
        "i16x8.extadd_pairwise_i8x16_s", "i16x8.extadd_pairwise_i8x16_u",
        "i32x4.extadd_pairwise_i16x8_s", "i32x4.extadd_pairwise_i16x8_u"]
      ++ each "i16x8" (["abs", "neg", "q15mulr_sat_s"] ++ laneOperations "i32x4"
        ++ widening "extend" "i8x16" ++ laneSums) ++ ["f64x2.nearest"]
      ++ each "i16x8" (["mul", "min_s", "min_u", "max_s", "max_u", "-", "avgr_u"]
        ++ widening "extmul" "i8x16")
      ++ each "i32x4" (["abs", "neg", "-", "all_true", "bitmask", "-", "-"]
        ++ widening "extend" "i16x8" ++ ["shl", "shr_s", "shr_u", "add", "-", "-", "sub", "-", "-",
          "-", "mul", "min_s", "min_u", "max_s", "max_u", "dot_i16x8_s", "-"]
        ++ widening "extmul" "i16x8")
      ++ each "i64x2" (["abs", "neg", "-", "all_true", "bitmask", "-", "-"]
        ++ widening "extend" "i32x4" ++ ["shl", "shr_s", "shr_u", "add", "-", "-", "sub", "-", "-",
          "-", "mul", "eq", "ne", "lt_s", "gt_s", "le_s", "ge_s"]
        ++ widening "extmul" "i32x4")
      ++ each "f32x4" floatLanes ++ each "f64x2" floatLanes
      ++ ["i32x4.trunc_sat_f32x4_s", "i32x4.trunc_sat_f32x4_u", "f32x4.convert_i32x4_s",
        "f32x4.convert_i32x4_u", "i32x4.trunc_sat_f64x2_s_zero", "i32x4.trunc_sat_f64x2_u_zero",
        "f64x2.convert_low_i32x4_s", "f64x2.convert_low_i32x4_u", "i8x16.relaxed_swizzle",
        "i32x4.relaxed_trunc_f32x4_s", "i32x4.relaxed_trunc_f32x4_u",
        "i32x4.relaxed_trunc_f64x2_s_zero", "i32x4.relaxed_trunc_f64x2_u_zero",
        "f32x4.relaxed_madd", "f32x4.relaxed_nmadd", "f64x2.relaxed_madd", "f64x2.relaxed_nmadd",
        "i8x16.relaxed_laneselect", "i16x8.relaxed_laneselect", "i32x4.relaxed_laneselect",
        "i64x2.relaxed_laneselect", "f32x4.relaxed_min", "f32x4.relaxed_max", "f64x2.relaxed_min",
        "f64x2.relaxed_max", "i16x8.relaxed_q15mulr_s", "i16x8.relaxed_dot_i8x16_i7x16_s",
        "i32x4.relaxed_dot_i8x16_i7x16_add_s"]) ]

/-- The atomic operations of a name, from the widest to the narrowest of each type. -/
def atomicFamily (operation : String) : List String :=
  ["i32.atomic.rmw." ++ operation, "i64.atomic.rmw." ++ operation,
    "i32.atomic.rmw8." ++ operation ++ "_u", "i32.atomic.rmw16." ++ operation ++ "_u",
    "i64.atomic.rmw8." ++ operation ++ "_u", "i64.atomic.rmw16." ++ operation ++ "_u",
    "i64.atomic.rmw32." ++ operation ++ "_u"]

/-- The atomic operations that read, change and write. -/
def atomicUpdates : List String := ["rmw.add", "rmw.sub", "rmw.and", "rmw.or", "rmw.xor"]

/-- The atomic exchanges. -/
def atomicExchanges : List String := ["rmw.xchg", "rmw.cmpxchg"]

/-- The names of the opcodes that follow `fe`. -/
def atomic : List Names :=
  [ (0x00, ["memory.atomic.notify", "memory.atomic.wait32", "memory.atomic.wait64", "atomic.fence"])
  , (0x10, ["i32.atomic.load", "i64.atomic.load", "i32.atomic.load8_u", "i32.atomic.load16_u",
      "i64.atomic.load8_u", "i64.atomic.load16_u", "i64.atomic.load32_u", "i32.atomic.store",
      "i64.atomic.store", "i32.atomic.store8", "i32.atomic.store16", "i64.atomic.store8",
      "i64.atomic.store16", "i64.atomic.store32"]
      ++ atomicFamily "add" ++ atomicFamily "sub" ++ atomicFamily "and" ++ atomicFamily "or"
      ++ atomicFamily "xor" ++ atomicFamily "xchg" ++ atomicFamily "cmpxchg")
  , (0x4f, each "global.atomic" (["get", "set"] ++ atomicUpdates ++ atomicExchanges)
      ++ each "table.atomic" (["get", "set"] ++ atomicExchanges)
      ++ each "struct.atomic" (["get", "get_s", "get_u", "set"] ++ atomicUpdates ++ atomicExchanges)
      ++ each "array.atomic" (["get", "get_s", "get_u", "set"] ++ atomicUpdates ++ atomicExchanges)
      ++ ["ref.i31_shared"]) ]

/-- The name with a number in a list of names. -/
def find (table : List Names) (number : Nat) : String :=
  (table.findSome? fun names =>
    if names.1 ≤ number then names.2[number - names.1]? else none).getD ""

end Mnemonic

/-- The name of the instruction with an opcode. -/
def OpNumber.mnemonic (n : OpNumber) : String :=
  match n.lead with
  | 0xfb => Mnemonic.find Mnemonic.managed n.sub
  | 0xfc => Mnemonic.find Mnemonic.bulk n.sub
  | 0xfd => Mnemonic.find Mnemonic.vector n.sub
  | 0xfe => Mnemonic.find Mnemonic.atomic n.sub
  | _ => Mnemonic.find Mnemonic.plain n.lead

end Wasm
end WasmLowering
