import WebAssembly.Numeric.Integer
import WebAssembly.Binary.Arithmetic
import WebAssembly.Binary.Order
import WebAssembly.Binary.Rounding
import WebAssembly.Value

/-!
# Evaluation of numeric operators

Operators act on the bits of their operands.  A 32-bit operator reads the low half of
the bits and gives a result whose high half is zero.
-/

namespace WebAssembly

/-- The low bits of a word as a bit vector of the given width. -/
def Width.toBitVec (w : Width) (bits : UInt64) : BitVec w.bits :=
  match w with
  | .w32 => bits.toUInt32.toBitVec
  | .w64 => bits.toBitVec

/-- A bit vector as a word, with zeros above. -/
def Width.ofBitVec (w : Width) (a : BitVec w.bits) : UInt64 :=
  match w with
  | .w32 => (UInt32.ofBitVec a).toUInt64
  | .w64 => UInt64.ofBitVec a

/-- The low bits of a word as a number. -/
def Width.toNat (w : Width) (bits : UInt64) : Nat :=
  (w.toBitVec bits).toNat

def wordOfBool (b : Bool) : UInt64 :=
  if b then 1 else 0

namespace FloatCompare

/-- Whether the comparison holds; with a NaN only inequality does. -/
def holds (op : FloatCompare) (w : Width) (a b : Nat) : Bool :=
  match op with
  | .eq => Binary.eq w a b
  | .ne => !Binary.eq w a b
  | .lt => Binary.lt w a b
  | .gt => Binary.lt w b a
  | .le => Binary.le w a b
  | .ge => Binary.le w b a

end FloatCompare

namespace FloatUnary

/-- The result of the operator on a word. -/
def apply (op : FloatUnary) (w : Width) (a : Nat) : Nat :=
  match op with
  | .abs => Binary.abs w a
  | .neg => Binary.neg w a
  | .ceil => Binary.Rounding.up.apply w a
  | .floor => Binary.Rounding.down.apply w a
  | .trunc => Binary.Rounding.towardZero.apply w a
  | .nearest => Binary.Rounding.nearestEven.apply w a
  | .sqrt => Binary.sqrt w a

end FloatUnary

namespace FloatBinary

/-- The result of the operator on two words. -/
def apply (op : FloatBinary) (w : Width) (a b : Nat) : Nat :=
  match op with
  | .add => Binary.add w a b
  | .sub => Binary.sub w a b
  | .mul => Binary.mul w a b
  | .div => Binary.div w a b
  | .min => Binary.min w a b
  | .max => Binary.max w a b
  | .copysign => Binary.copySign w a b

end FloatBinary

namespace Signedness

/-- The least integer of a width, as a 64-bit floating-point word. -/
def leastWord (sign : Signedness) (target : Width) : Nat :=
  match sign with
  | .signed => Binary.encode .w64 true 1 (target.bits - 1 : Nat)
  | .unsigned => Binary.encode .w64 false 0 0

/-- The greatest integer of a width, as a 64-bit floating-point word.  The greatest
integers of 64 bits have too many digits and are rounded up, to the power of two above
them. -/
def greatestWord (sign : Signedness) (target : Width) : Nat :=
  match target, sign with
  | .w32, .signed => Binary.encode .w64 false 0x7fffffff 0
  | .w32, .unsigned => Binary.encode .w64 false 0xffffffff 0
  | .w64, .signed => Binary.encode .w64 false 1 63
  | .w64, .unsigned => Binary.encode .w64 false 1 64

/-- Whether a 64-bit floating-point word lies above the integers of a width.  A bound
that was rounded up is itself above them. -/
def exceeds (sign : Signedness) (target : Width) (v : Nat) : Bool :=
  match target with
  | .w32 => Binary.lt .w64 (sign.greatestWord target) v
  | .w64 => Binary.le .w64 (sign.greatestWord target) v

end Signedness

namespace Conversion

/-- A floating-point word truncated to an integer of the target width.  It is widened
and rounded toward zero first and then compared with the bounds of the integers.  A NaN
has no integer, and an infinity or a number outside the bounds does not fit. -/
def truncateWord (target source : Width) (sign : Signedness) (a : Nat) :
    Except ArithmeticFailure (BitVec target.bits) :=
  let v := Binary.Rounding.towardZero.apply .w64 (Binary.widen source a)
  if Binary.isNaN .w64 v then .error .invalidConversion
  else if Binary.lt .w64 v (sign.leastWord target) || sign.exceeds target v then
    .error .overflow
  else .ok (BitVec.ofInt target.bits (Binary.toInteger .w64 v))

/-- An integer of the source width as a floating-point word. -/
def convertWord (target source : Width) (sign : Signedness)
    (a : BitVec source.bits) : Nat :=
  match sign with
  | .signed => Binary.ofSigned target (Int64.ofBitVec (a.signExtend 64))
  | .unsigned => Binary.ofUnsigned target (UInt64.ofBitVec (a.setWidth 64))

def apply (conversion : Conversion) (bits : UInt64) : Except ArithmeticFailure UInt64 :=
  match conversion with
  | .wrap => .ok bits.toUInt32.toUInt64
  | .extend .signed => .ok (UInt64.ofBitVec ((Width.w32.toBitVec bits).signExtend 64))
  | .extend .unsigned => .ok bits.toUInt32.toUInt64
  | .truncate target source sign =>
    (truncateWord target source sign (source.toNat bits)).map target.ofBitVec
  | .convert target source sign =>
    .ok (convertWord target source sign (source.toBitVec bits)).toUInt64
  | .demote => .ok (Binary.demote (Width.w64.toNat bits)).toUInt64
  | .promote => .ok (Binary.promote (Width.w32.toNat bits)).toUInt64
  | .floatBits width => .ok (width.ofBitVec (width.toBitVec bits))
  | .bitsFloat width => .ok (width.ofBitVec (width.toBitVec bits))

end Conversion

namespace UnaryOp

def apply (op : UnaryOp) (bits : UInt64) : Except ArithmeticFailure UInt64 :=
  match op with
  | .eqz width => .ok (wordOfBool (width.toBitVec bits == 0))
  | .int width op => .ok (width.ofBitVec (op.apply (width.toBitVec bits)))
  | .float width op => .ok (op.apply width (width.toNat bits)).toUInt64
  | .convert conversion => conversion.apply bits
  | .signExtend extension =>
    .ok (extension.width.ofBitVec (extension.apply (extension.width.toBitVec bits)))

/-- The value that the operator gives. -/
def eval (op : UnaryOp) (a : Val) : Except ArithmeticFailure Val :=
  (op.apply a.bits).map (Val.ofBits (.number op.result))

end UnaryOp

namespace BinaryOp

/-- The bits of the result. -/
def apply (op : BinaryOp) (a b : UInt64) : Except ArithmeticFailure UInt64 :=
  match op with
  | .intCompare width op =>
    .ok (wordOfBool (op.holds (width.toBitVec a) (width.toBitVec b)))
  | .floatCompare width op =>
    .ok (wordOfBool (op.holds width (width.toNat a) (width.toNat b)))
  | .int width op => (op.apply (width.toBitVec a) (width.toBitVec b)).map width.ofBitVec
  | .float width op => .ok (op.apply width (width.toNat a) (width.toNat b)).toUInt64

/-- The value that the operator gives. -/
def eval (op : BinaryOp) (a b : Val) : Except ArithmeticFailure Val :=
  (op.apply a.bits b.bits).map (Val.ofBits (.number op.result))

end BinaryOp
end WebAssembly
