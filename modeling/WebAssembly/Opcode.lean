import WebAssembly.Numeric.Operator

/-!
# Opcodes

An opcode is the byte with which an instruction begins.  Opcodes have the names of the
text format, and every byte is an opcode: one that no instruction uses is reserved.
-/

namespace WebAssembly

/-- Loads: the type of the value, and the bits and sign of a narrow one. -/
inductive LoadOp
  | i32
  | i64
  | f32
  | f64
  | i32From8 (sign : Signedness)
  | i32From16 (sign : Signedness)
  | i64From8 (sign : Signedness)
  | i64From16 (sign : Signedness)
  | i64From32 (sign : Signedness)
  deriving DecidableEq, Repr, Inhabited

namespace LoadOp

def type : LoadOp → NumberType
  | .i32 | .i32From8 _ | .i32From16 _ => .i32
  | .i64 | .i64From8 _ | .i64From16 _ | .i64From32 _ => .i64
  | .f32 => .f32
  | .f64 => .f64

/-- The number of bytes that are read. -/
def byteCount : LoadOp → Nat
  | .i32From8 _ | .i64From8 _ => 1
  | .i32From16 _ | .i64From16 _ => 2
  | .i32 | .f32 | .i64From32 _ => 4
  | .i64 | .f64 => 8

/-- How the bytes are extended to the width of the value. -/
def sign : LoadOp → Signedness
  | .i32 | .i64 | .f32 | .f64 => .unsigned
  | .i32From8 sign | .i32From16 sign | .i64From8 sign | .i64From16 sign
  | .i64From32 sign => sign

end LoadOp

/-- Stores: the type of the value, and the number of bits of a narrow one. -/
inductive StoreOp
  | i32
  | i64
  | f32
  | f64
  | i32To8
  | i32To16
  | i64To8
  | i64To16
  | i64To32
  deriving DecidableEq, Repr, Inhabited

namespace StoreOp

def type : StoreOp → NumberType
  | .i32 | .i32To8 | .i32To16 => .i32
  | .i64 | .i64To8 | .i64To16 | .i64To32 => .i64
  | .f32 => .f32
  | .f64 => .f64

/-- The number of bytes that are written. -/
def byteCount : StoreOp → Nat
  | .i32To8 | .i64To8 => 1
  | .i32To16 | .i64To16 => 2
  | .i32 | .f32 | .i64To32 => 4
  | .i64 | .f64 => 8

end StoreOp

/-- The opcodes of instructions, and those that no instruction of a body has. -/
inductive Opcode
  | unreachable
  | nop
  | block
  | loop
  | ifElse
  | br
  | brIf
  | brTable
  | ret
  | call
  | callIndirect
  | drop
  | select
  | localGet
  | localSet
  | localTee
  | globalGet
  | globalSet
  | load (op : LoadOp)
  | store (op : StoreOp)
  | memorySize
  | memoryGrow
  | const (type : NumberType)
  | unary (op : UnaryOp)
  | binary (op : BinaryOp)
  | reserved (code : UInt8)
  deriving DecidableEq, Repr, Inhabited

namespace Signedness

/-- The mark of a signed or unsigned operator at the end of its name. -/
def mark : Signedness → String
  | .signed => "_s"
  | .unsigned => "_u"

end Signedness

namespace LoadOp

def name : LoadOp → String
  | .i32 => "i32.load"
  | .i64 => "i64.load"
  | .f32 => "f32.load"
  | .f64 => "f64.load"
  | .i32From8 sign => "i32.load8" ++ sign.mark
  | .i32From16 sign => "i32.load16" ++ sign.mark
  | .i64From8 sign => "i64.load8" ++ sign.mark
  | .i64From16 sign => "i64.load16" ++ sign.mark
  | .i64From32 sign => "i64.load32" ++ sign.mark

end LoadOp

namespace StoreOp

def name : StoreOp → String
  | .i32 => "i32.store"
  | .i64 => "i64.store"
  | .f32 => "f32.store"
  | .f64 => "f64.store"
  | .i32To8 => "i32.store8"
  | .i32To16 => "i32.store16"
  | .i64To8 => "i64.store8"
  | .i64To16 => "i64.store16"
  | .i64To32 => "i64.store32"

end StoreOp

namespace IntCompare

def name : IntCompare → String
  | .eq => "eq"
  | .ne => "ne"
  | .lt sign => "lt" ++ sign.mark
  | .gt sign => "gt" ++ sign.mark
  | .le sign => "le" ++ sign.mark
  | .ge sign => "ge" ++ sign.mark

end IntCompare

namespace IntUnary

/-- The name of the operator, without its type. -/
def name : IntUnary → String
  | .clz => "clz"
  | .ctz => "ctz"
  | .popcnt => "popcnt"

end IntUnary

namespace IntBinary

/-- The name of the operator, without its type. -/
def name : IntBinary → String
  | .add => "add"
  | .sub => "sub"
  | .mul => "mul"
  | .div sign => "div" ++ sign.mark
  | .rem sign => "rem" ++ sign.mark
  | .and => "and"
  | .or => "or"
  | .xor => "xor"
  | .shl => "shl"
  | .shr sign => "shr" ++ sign.mark
  | .rotl => "rotl"
  | .rotr => "rotr"

end IntBinary

namespace FloatCompare

def name : FloatCompare → String
  | .eq => "eq"
  | .ne => "ne"
  | .lt => "lt"
  | .gt => "gt"
  | .le => "le"
  | .ge => "ge"

end FloatCompare

namespace FloatUnary

/-- The name of the operator, without its type. -/
def name : FloatUnary → String
  | .abs => "abs"
  | .neg => "neg"
  | .ceil => "ceil"
  | .floor => "floor"
  | .trunc => "trunc"
  | .nearest => "nearest"
  | .sqrt => "sqrt"

end FloatUnary

namespace FloatBinary

/-- The name of the operator, without its type. -/
def name : FloatBinary → String
  | .add => "add"
  | .sub => "sub"
  | .mul => "mul"
  | .div => "div"
  | .min => "min"
  | .max => "max"
  | .copysign => "copysign"

end FloatBinary

namespace Conversion

/-- The name of the conversion, without the type of its result. -/
def verb : Conversion → String
  | .wrap => "wrap_i64"
  | .extend sign => "extend_i32" ++ sign.mark
  | .truncate _ source sign => "trunc_" ++ (NumberType.float source).name ++ sign.mark
  | .convert _ source sign => "convert_" ++ (NumberType.int source).name ++ sign.mark
  | .demote => "demote_f64"
  | .promote => "promote_f32"
  | .floatBits width => "reinterpret_" ++ (NumberType.float width).name
  | .bitsFloat width => "reinterpret_" ++ (NumberType.int width).name

end Conversion

namespace UnaryOp

/-- The name of the operator in the text format. -/
def name : UnaryOp → String
  | .eqz width => (NumberType.int width).name ++ ".eqz"
  | .int width op => (NumberType.int width).name ++ "." ++ op.name
  | .float width op => (NumberType.float width).name ++ "." ++ op.name
  | .convert conversion => conversion.result.name ++ "." ++ conversion.verb
  | .signExtend extension =>
    (NumberType.int extension.width).name ++ s!".extend{extension.lowBits}_s"

end UnaryOp

namespace BinaryOp

/-- The name of the operator in the text format. -/
def name : BinaryOp → String
  | .intCompare width op => (NumberType.int width).name ++ "." ++ op.name
  | .floatCompare width op => (NumberType.float width).name ++ "." ++ op.name
  | .int width op => (NumberType.int width).name ++ "." ++ op.name
  | .float width op => (NumberType.float width).name ++ "." ++ op.name

end BinaryOp

namespace Opcode

/-- The byte that separates the two arms of a conditional. -/
def elseCode : UInt8 := 0x05

/-- The byte that ends a block. -/
def endCode : UInt8 := 0x0b

/-- The name of the opcode in the text format, empty where it has none.  The marks that
separate and end blocks have names although no instruction of a body has their
opcode. -/
def name : Opcode → String
  | .unreachable => "unreachable"
  | .nop => "nop"
  | .block => "block"
  | .loop => "loop"
  | .ifElse => "if"
  | .br => "br"
  | .brIf => "br_if"
  | .brTable => "br_table"
  | .ret => "return"
  | .call => "call"
  | .callIndirect => "call_indirect"
  | .drop => "drop"
  | .select => "select"
  | .localGet => "local.get"
  | .localSet => "local.set"
  | .localTee => "local.tee"
  | .globalGet => "global.get"
  | .globalSet => "global.set"
  | .load op => op.name
  | .store op => op.name
  | .memorySize => "memory.size"
  | .memoryGrow => "memory.grow"
  | .const type => type.name ++ ".const"
  | .unary op => op.name
  | .binary op => op.name
  | .reserved code =>
    if code = elseCode then "else" else if code = endCode then "end" else ""

/-- Opcodes with consecutive bytes from the given one on. -/
def numbered (code : UInt8) : List Opcode → List (UInt8 × Opcode)
  | [] => []
  | op :: rest => (code, op) :: numbered (code + 1) rest

/-- Both signednesses of an operator, in the order of their opcodes. -/
def bothSigns {α : Type} (f : Signedness → α) : List α :=
  [f .signed, f .unsigned]

/-- The comparisons of integers, in the order of their opcodes. -/
def intCompares : List IntCompare :=
  List.flatten
    [[.eq, .ne], bothSigns .lt, bothSigns .gt, bothSigns .le, bothSigns .ge]

/-- The operators on two integers, in the order of their opcodes. -/
def intBinaries : List IntBinary :=
  List.flatten
    [[.add, .sub, .mul], bothSigns .div, bothSigns .rem, [.and, .or, .xor, .shl],
      bothSigns .shr, [.rotl, .rotr]]

def intTests (w : Width) : List Opcode :=
  .unary (.eqz w) :: intCompares.map fun op => .binary (.intCompare w op)

def floatTests (w : Width) : List Opcode :=
  [FloatCompare.eq, .ne, .lt, .gt, .le, .ge].map fun op => .binary (.floatCompare w op)

def intArithmetic (w : Width) : List Opcode :=
  ([IntUnary.clz, .ctz, .popcnt].map fun op => .unary (.int w op))
    ++ intBinaries.map fun op => .binary (.int w op)

def floatArithmetic (w : Width) : List Opcode :=
  ([FloatUnary.abs, .neg, .ceil, .floor, .trunc, .nearest, .sqrt].map fun op =>
    .unary (.float w op))
    ++ [FloatBinary.add, .sub, .mul, .div, .min, .max, .copysign].map fun op =>
      .binary (.float w op)

/-- The conversions, in the order of their opcodes. -/
def conversions : List Conversion :=
  List.flatten
    [[.wrap], bothSigns (.truncate .w32 .w32), bothSigns (.truncate .w32 .w64),
      bothSigns .extend, bothSigns (.truncate .w64 .w32),
      bothSigns (.truncate .w64 .w64), bothSigns (.convert .w32 .w32),
      bothSigns (.convert .w32 .w64), [.demote], bothSigns (.convert .w64 .w32),
      bothSigns (.convert .w64 .w64), [.promote],
      [.floatBits .w32, .floatBits .w64, .bitsFloat .w32, .bitsFloat .w64]]

/-- The loads, in the order of their opcodes. -/
def loads : List LoadOp :=
  List.flatten
    [[.i32, .i64, .f32, .f64], bothSigns .i32From8, bothSigns .i32From16,
      bothSigns .i64From8, bothSigns .i64From16, bothSigns .i64From32]

/-- The stores, in the order of their opcodes. -/
def stores : List StoreOp :=
  [.i32, .i64, .f32, .f64, .i32To8, .i32To16, .i64To8, .i64To16, .i64To32]

/-- The sign extensions, in the order of their opcodes. -/
def signExtensions : List SignExtension :=
  [.i32From8, .i32From16, .i64From8, .i64From16, .i64From32]

/-- The named opcodes with their bytes. -/
def table : List (UInt8 × Opcode) :=
  List.flatten [
    numbered 0x00 [.unreachable, .nop, .block, .loop, .ifElse, .reserved elseCode],
    numbered 0x0b
      [.reserved endCode, .br, .brIf, .brTable, .ret, .call, .callIndirect],
    numbered 0x1a [.drop, .select],
    numbered 0x20 [.localGet, .localSet, .localTee, .globalGet, .globalSet],
    numbered 0x28 (List.flatten
      [loads.map .load, stores.map .store, [.memorySize, .memoryGrow],
        [.const .i32, .const .i64, .const .f32, .const .f64]]),
    numbered 0x45 (List.flatten
      [intTests .w32, intTests .w64, floatTests .w32, floatTests .w64,
        intArithmetic .w32, intArithmetic .w64, floatArithmetic .w32,
        floatArithmetic .w64,
        conversions.map fun conversion => .unary (.convert conversion),
        signExtensions.map fun extension => .unary (.signExtend extension)])]

/-- The opcode of a byte. -/
def ofCode (code : UInt8) : Opcode :=
  ((table.find? (·.1 = code)).map (·.2)).getD (.reserved code)

def ofName? (name : String) : Option Opcode :=
  (table.find? (·.2.name = name)).map (·.2)

end Opcode
end WebAssembly
