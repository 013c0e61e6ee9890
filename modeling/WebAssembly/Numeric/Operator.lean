import WebAssembly.Type
import WebAssembly.Binary.Format

/-!
# Numeric operators

The numeric instructions, sorted into families, with the operand and result types of
each.
-/

namespace WebAssembly

namespace NumberType

def int : Width → NumberType
  | .w32 => .i32
  | .w64 => .i64

def float : Width → NumberType
  | .w32 => .f32
  | .w64 => .f64

end NumberType

/-- How the bits of an integer are read. -/
inductive Signedness
  | signed
  | unsigned
  deriving DecidableEq, Repr, Inhabited

/-- Comparisons of integers. -/
inductive IntCompare
  | eq
  | ne
  | lt (sign : Signedness)
  | gt (sign : Signedness)
  | le (sign : Signedness)
  | ge (sign : Signedness)
  deriving DecidableEq, Repr, Inhabited

/-- Operators on one integer. -/
inductive IntUnary
  | clz
  | ctz
  | popcnt
  deriving DecidableEq, Repr, Inhabited

/-- Operators on two integers. -/
inductive IntBinary
  | add
  | sub
  | mul
  | div (sign : Signedness)
  | rem (sign : Signedness)
  | and
  | or
  | xor
  | shl
  | shr (sign : Signedness)
  | rotl
  | rotr
  deriving DecidableEq, Repr, Inhabited

/-- Comparisons of floating-point numbers. -/
inductive FloatCompare
  | eq
  | ne
  | lt
  | gt
  | le
  | ge
  deriving DecidableEq, Repr, Inhabited

/-- Operators on one floating-point number. -/
inductive FloatUnary
  | abs
  | neg
  | ceil
  | floor
  | trunc
  | nearest
  | sqrt
  deriving DecidableEq, Repr, Inhabited

/-- Operators on two floating-point numbers. -/
inductive FloatBinary
  | add
  | sub
  | mul
  | div
  | min
  | max
  | copysign
  deriving DecidableEq, Repr, Inhabited

/-- Conversions between number types. -/
inductive Conversion
  /-- The low half of a 64-bit integer. -/
  | wrap
  /-- A 32-bit integer widened to 64 bits. -/
  | extend (sign : Signedness)
  /-- A floating-point number truncated to an integer. -/
  | truncate (target source : Width) (sign : Signedness)
  /-- An integer rounded to a floating-point number. -/
  | convert (target source : Width) (sign : Signedness)
  | demote
  | promote
  /-- The bits of a floating-point number as an integer. -/
  | floatBits (width : Width)
  /-- The bits of an integer as a floating-point number. -/
  | bitsFloat (width : Width)
  deriving DecidableEq, Repr, Inhabited

/-- Sign extensions within one integer type, from the low 8, 16 or 32 bits. -/
inductive SignExtension
  | i32From8
  | i32From16
  | i64From8
  | i64From16
  | i64From32
  deriving DecidableEq, Repr, Inhabited

namespace SignExtension

def width : SignExtension → Width
  | .i32From8 | .i32From16 => .w32
  | .i64From8 | .i64From16 | .i64From32 => .w64

def lowBits : SignExtension → Nat
  | .i32From8 | .i64From8 => 8
  | .i32From16 | .i64From16 => 16
  | .i64From32 => 32

end SignExtension

/-- Operators on one number. -/
inductive UnaryOp
  | eqz (width : Width)
  | int (width : Width) (op : IntUnary)
  | float (width : Width) (op : FloatUnary)
  | convert (conversion : Conversion)
  | signExtend (extension : SignExtension)
  deriving DecidableEq, Repr, Inhabited

/-- Operators on two numbers of one type. -/
inductive BinaryOp
  | intCompare (width : Width) (op : IntCompare)
  | floatCompare (width : Width) (op : FloatCompare)
  | int (width : Width) (op : IntBinary)
  | float (width : Width) (op : FloatBinary)
  deriving DecidableEq, Repr, Inhabited

namespace Conversion

def operand : Conversion → NumberType
  | .wrap => .i64
  | .extend _ => .i32
  | .truncate _ source _ => .float source
  | .convert _ source _ => .int source
  | .demote => .f64
  | .promote => .f32
  | .floatBits width => .float width
  | .bitsFloat width => .int width

def result : Conversion → NumberType
  | .wrap => .i32
  | .extend _ => .i64
  | .truncate target _ _ => .int target
  | .convert target _ _ => .float target
  | .demote => .f32
  | .promote => .f64
  | .floatBits width => .int width
  | .bitsFloat width => .float width

end Conversion

namespace UnaryOp

def operand : UnaryOp → NumberType
  | .eqz width => .int width
  | .int width _ => .int width
  | .float width _ => .float width
  | .convert conversion => conversion.operand
  | .signExtend extension => .int extension.width

def result : UnaryOp → NumberType
  | .eqz _ => .i32
  | .int width _ => .int width
  | .float width _ => .float width
  | .convert conversion => conversion.result
  | .signExtend extension => .int extension.width

end UnaryOp

namespace BinaryOp

def operand : BinaryOp → NumberType
  | .intCompare width _ => .int width
  | .floatCompare width _ => .float width
  | .int width _ => .int width
  | .float width _ => .float width

def result : BinaryOp → NumberType
  | .intCompare _ _ => .i32
  | .floatCompare _ _ => .i32
  | .int width _ => .int width
  | .float width _ => .float width

end BinaryOp
end WebAssembly
