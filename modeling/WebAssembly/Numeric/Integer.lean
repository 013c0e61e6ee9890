import WebAssembly.Numeric.Operator

/-!
# Integer operators

Integers are bit vectors of 32 or 64 bits.  Only division and remainder can fail: by a
zero divisor, and signed division also when the quotient does not fit.
-/

namespace WebAssembly

/-- Why an integer result does not exist. -/
inductive ArithmeticFailure
  | invalidConversion
  | overflow
  | divideByZero
  deriving DecidableEq, Repr, Inhabited

namespace IntCompare

def holds {n : Nat} (op : IntCompare) (a b : BitVec n) : Bool :=
  match op with
  | .eq => a == b
  | .ne => a != b
  | .lt .signed => a.slt b
  | .lt .unsigned => a.ult b
  | .gt .signed => b.slt a
  | .gt .unsigned => b.ult a
  | .le .signed => a.sle b
  | .le .unsigned => a.ule b
  | .ge .signed => b.sle a
  | .ge .unsigned => b.ule a

end IntCompare

namespace IntUnary

/-- The number of leading zeros, of trailing zeros, or of ones. -/
def apply {n : Nat} (op : IntUnary) (a : BitVec n) : BitVec n :=
  match op with
  | .clz => a.clz
  | .ctz => a.ctz
  | .popcnt => a.cpop

end IntUnary

namespace IntBinary

/-- The result of the operator.  Shifts and rotations take their count modulo the
width. -/
def apply {n : Nat} (op : IntBinary) (a b : BitVec n) :
    Except ArithmeticFailure (BitVec n) :=
  match op with
  | .add => .ok (a + b)
  | .sub => .ok (a - b)
  | .mul => .ok (a * b)
  | .div .signed =>
    if b = 0 then .error .divideByZero
    else if a = BitVec.intMin n ∧ b = -1 then .error .overflow
    else .ok (a.sdiv b)
  | .div .unsigned => if b = 0 then .error .divideByZero else .ok (a / b)
  | .rem .signed => if b = 0 then .error .divideByZero else .ok (a.srem b)
  | .rem .unsigned => if b = 0 then .error .divideByZero else .ok (a % b)
  | .and => .ok (a &&& b)
  | .or => .ok (a ||| b)
  | .xor => .ok (a ^^^ b)
  | .shl => .ok (a <<< (b.toNat % n))
  | .shr .signed => .ok (a.sshiftRight (b.toNat % n))
  | .shr .unsigned => .ok (a >>> (b.toNat % n))
  | .rotl => .ok (a.rotateLeft (b.toNat % n))
  | .rotr => .ok (a.rotateRight (b.toNat % n))

end IntBinary

namespace SignExtension

/-- The low bits of an integer, extended by their sign. -/
def apply {n : Nat} (extension : SignExtension) (a : BitVec n) : BitVec n :=
  (a.setWidth extension.lowBits).signExtend n

end SignExtension
end WebAssembly
