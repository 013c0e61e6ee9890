import WebAssembly.Type
import WebAssembly.Decimal.Layout

/-!
# Values

A value is a word of 64 bits with the type under which it is to be read.  The bits are
kept as they are: an accessor of another type reads them anew and converts nothing.
-/

namespace WebAssembly

/-- A value of some type. -/
structure Val where
  type : ValueType
  bits : UInt64
  deriving DecidableEq, Repr, Inhabited

namespace Val

/-- The value of the given type and bits; of a 32-bit type only the low half of the bits
is kept. -/
def ofBits (type : ValueType) (bits : UInt64) : Val :=
  match type with
  | .i32 | .f32 => ⟨type, bits.toUInt32.toUInt64⟩
  | _ => ⟨type, bits⟩

/-- The zero of a type, with which locals start. -/
def zero (type : ValueType) : Val :=
  ⟨type, 0⟩

def u32 (v : Val) : UInt32 :=
  v.bits.toUInt32

def ofU32 (n : UInt32) : Val :=
  ⟨.i32, n.toUInt64⟩

/-- The truth value as a 32-bit integer. -/
def ofBool (b : Bool) : Val :=
  ofU32 (if b then 1 else 0)

/-- The type and the value; bits of no number type are written in hexadecimal. -/
def text (v : Val) : String :=
  match v.type with
  | .i32 => s!"i32:{v.u32.toInt32}"
  | .i64 => s!"i64:{v.bits.toInt64}"
  | .f32 => "f32:" ++ Decimal.Layout.compact.text .w32 v.u32.toNat
  | .f64 => "f64:" ++ Decimal.Layout.compact.text .w64 v.bits.toNat
  | type => type.name ++ ":" ++ Text.hexMarked v.bits.toNat

end Val
end WebAssembly
