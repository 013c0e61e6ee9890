import WebAssembly.Opcode
import WebAssembly.Page
import WebAssembly.Value

/-!
# Memories

A memory is an array of bytes whose size is a whole number of pages.  It grows by zero
bytes, up to a cap that is fixed when it is allocated.  Numbers are stored with their
low byte first.
-/

namespace WebAssembly

/-- The number that a list of bytes stands for, low byte first. -/
def natOfBytes : List UInt8 → Nat
  | [] => 0
  | byte :: rest => byte.toNat + 256 * natOfBytes rest

/-- The lowest `count` bytes of a number, low byte first. -/
def bytesOfNat : Nat → Nat → List UInt8
  | 0, _ => []
  | count + 1, n => UInt8.ofNat n :: bytesOfNat count (n / 256)

/-- Writes bytes into an array from a position on; what would fall outside is
dropped. -/
def overwrite (bytes : Array UInt8) (position : Nat) : List UInt8 → Array UInt8
  | [] => bytes
  | byte :: rest => overwrite (bytes.setIfInBounds position byte) (position + 1) rest

/-- A memory in a store. -/
structure MemInst where
  bytes : Array UInt8
  /-- The limits with which the memory was declared. -/
  limits : Limits
  /-- The number of pages that growth may not exceed. -/
  cap : UInt32
  deriving DecidableEq, Repr, Inhabited

namespace MemInst

/-- A memory of zero bytes with the declared minimum of pages.  Its cap is the least of
the declared maximum, the largest number of pages of any memory, and the cap of the
store. -/
def new (limits : Limits) (storeCap : UInt32) : MemInst where
  bytes := Array.replicate (Page.bytes limits.min).toNat 0
  limits := limits
  cap := min (min (limits.max.getD Page.maxCount) Page.maxCount) storeCap

def pages (m : MemInst) : UInt32 :=
  UInt32.ofNat (m.bytes.size / Page.byteCount)

/-- Whether `size` bytes lie in the memory from an offset on.  The sum is one of 64-bit
words. -/
def hasSize (m : MemInst) (offset size : UInt64) : Bool :=
  offset + size ≤ UInt64.ofNat m.bytes.size

/-- The bytes in a range that lies in the memory. -/
def slice (m : MemInst) (offset count : Nat) : List UInt8 :=
  (m.bytes.extract offset (offset + count)).toList

/-- The memory with bytes written from an offset on. -/
def splice (m : MemInst) (offset : Nat) (bytes : List UInt8) : MemInst :=
  { m with bytes := overwrite m.bytes offset bytes }

/-- The bytes in a range, if it lies in the memory. -/
def read? (m : MemInst) (offset count : UInt32) : Option (List UInt8) :=
  if m.hasSize offset.toUInt64 count.toUInt64 then
    some (m.slice offset.toNat count.toNat)
  else none

/-- The memory with bytes written from an offset on, if they fit. -/
def write? (m : MemInst) (offset : UInt32) (bytes : List UInt8) : Option MemInst :=
  if m.hasSize offset.toUInt64 (UInt64.ofNat bytes.length) then
    some (m.splice offset.toNat bytes)
  else none

/-- The memory with zero pages added, unless that exceeds its cap. -/
def grow? (m : MemInst) (delta : UInt32) : Option MemInst :=
  if m.pages.toNat + delta.toNat ≤ m.cap.toNat then
    some { m with bytes := m.bytes ++ Array.replicate (Page.bytes delta).toNat 0 }
  else none

def address (base offset : UInt32) : UInt64 :=
  base.toUInt64 + offset.toUInt64

/-- The value that a load finds at an address, if the bytes lie in the memory. -/
def load? (m : MemInst) (op : LoadOp) (addr : UInt64) : Option Val :=
  if m.hasSize addr (UInt64.ofNat op.byteCount) then
    let n := natOfBytes (m.slice addr.toNat op.byteCount)
    let bits :=
      match op.sign with
      | .unsigned => UInt64.ofNat n
      | .signed => UInt64.ofBitVec ((BitVec.ofNat (8 * op.byteCount) n).signExtend 64)
    some (Val.ofBits (.number op.type) bits)
  else none

/-- Whether the bytes of a store at an address lie in the memory. -/
def admits (m : MemInst) (op : StoreOp) (addr : UInt64) : Bool :=
  m.hasSize addr (UInt64.ofNat op.byteCount)

/-- The memory after a store at an address that it admits. -/
def store (m : MemInst) (op : StoreOp) (addr : UInt64) (v : Val) : MemInst :=
  m.splice addr.toNat (bytesOfNat op.byteCount v.bits.toNat)

end MemInst
end WebAssembly
