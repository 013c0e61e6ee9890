import WebAssembly.Proofs.Bytes
import WebAssembly.Proofs.Execution
import WebAssembly.Proofs.Reachability

/-!
# Loads and stores

What a load finds and what a store leaves behind, byte by byte.  The effective address
is the sum of the address operand and the offset of the instruction as numbers, and an
access that would pass the last byte of the memory traps before anything is written.
-/

namespace WebAssembly

/-! ## Numbers of a given width -/

/-- The number of bits of a value of the type. -/
def NumberType.bitCount : NumberType → Nat
  | .i32 | .f32 => 32
  | .i64 | .f64 => 64

/-- The integer that a number below `2 ^ width` stands for; under a sign the upper half
is negative. -/
def Signedness.read (sign : Signedness) (width n : Nat) : Int :=
  match sign with
  | .unsigned => n
  | .signed => if 2 * n < 2 ^ width then n else (n : Int) - (2 ^ width : Nat)

/-- The loads: the type of the value, the number of bytes that are read, and whether
they are extended by their sign. -/
inductive LoadOp.Reads : LoadOp → NumberType → Nat → Signedness → Prop
  | i32 : Reads .i32 .i32 4 .unsigned
  | i64 : Reads .i64 .i64 8 .unsigned
  | f32 : Reads .f32 .f32 4 .unsigned
  | f64 : Reads .f64 .f64 8 .unsigned
  | i32From8 (sign : Signedness) : Reads (.i32From8 sign) .i32 1 sign
  | i32From16 (sign : Signedness) : Reads (.i32From16 sign) .i32 2 sign
  | i64From8 (sign : Signedness) : Reads (.i64From8 sign) .i64 1 sign
  | i64From16 (sign : Signedness) : Reads (.i64From16 sign) .i64 2 sign
  | i64From32 (sign : Signedness) : Reads (.i64From32 sign) .i64 4 sign

/-- The stores: the type of the value and the number of bytes that are written. -/
inductive StoreOp.Writes : StoreOp → NumberType → Nat → Prop
  | i32 : Writes .i32 .i32 4
  | i64 : Writes .i64 .i64 8
  | f32 : Writes .f32 .f32 4
  | f64 : Writes .f64 .f64 8
  | i32To8 : Writes .i32To8 .i32 1
  | i32To16 : Writes .i32To16 .i32 2
  | i64To8 : Writes .i64To8 .i64 1
  | i64To16 : Writes .i64To16 .i64 2
  | i64To32 : Writes .i64To32 .i64 4

theorem LoadOp.reads (op : LoadOp) : op.Reads op.type op.byteCount op.sign := by
  cases op <;> constructor

theorem LoadOp.Reads.eq
    {op : LoadOp} {type : NumberType} {width : Nat} {sign : Signedness}
    (h : op.Reads type width sign) :
    type = op.type ∧ width = op.byteCount ∧ sign = op.sign := by
  cases h <;> exact ⟨rfl, rfl, rfl⟩

theorem StoreOp.writes (op : StoreOp) : op.Writes op.type op.byteCount := by
  cases op <;> constructor

theorem StoreOp.Writes.eq
    {op : StoreOp} {type : NumberType} {width : Nat} (h : op.Writes type width) :
    type = op.type ∧ width = op.byteCount := by
  cases h <;> exact ⟨rfl, rfl⟩

/-- The value has a type and stands for the same integer as the bytes of a width that
were read, which have the number `n`. -/
structure Val.IsRead (v : Val) (type : NumberType) (width : Nat) (sign : Signedness)
    (n : Nat) : Prop where
  fits : v.bits.toNat < 2 ^ type.bitCount
  value : sign.read type.bitCount v.bits.toNat = sign.read (8 * width) n
  type : v.type = .number type

theorem LoadOp.bitCount_le (op : LoadOp) : 8 * op.byteCount ≤ op.type.bitCount := by
  cases op <;> simp [byteCount, type, NumberType.bitCount]

theorem StoreOp.bitCount_le (op : StoreOp) : 8 * op.byteCount ≤ op.type.bitCount := by
  cases op <;> decide

theorem NumberType.bitCount_le (type : NumberType) : type.bitCount ≤ 64 := by
  cases type <;> decide

theorem Val.toNat_bits_ofBits (type : NumberType) (bits : UInt64) :
    (Val.ofBits (.number type) bits).bits.toNat = bits.toNat % 2 ^ type.bitCount := by
  have hlt := bits.toNat_lt
  cases type with
  | i32 | f32 => simp [Val.ofBits, NumberType.bitCount]
  | i64 | f64 =>
      simp only [Val.ofBits, NumberType.bitCount]
      omega

/-- The number of the bits that a number of fewer bits becomes when it is extended by
its sign. -/
def signExtended (width wide n : Nat) : Nat :=
  if 2 * n < 2 ^ width then n else n + (2 ^ wide - 2 ^ width)

theorem signExtended_of_lt
    {width n : Nat} (hhalf : 2 * n < 2 ^ width) (wide : Nat) :
    signExtended width wide n = n :=
  if_pos hhalf

theorem signExtended_of_le
    {width n : Nat} (hhalf : 2 ^ width ≤ 2 * n) (wide : Nat) :
    signExtended width wide n = n + (2 ^ wide - 2 ^ width) :=
  if_neg (Nat.not_lt.mpr hhalf)

theorem Signedness.read_signExtended
    {width wide : Nat} (hwide : width ≤ wide) (n : Nat) :
    Signedness.signed.read wide (signExtended width wide n) =
      Signedness.signed.read width n := by
  have hpow : 2 ^ width ≤ 2 ^ wide := Nat.pow_le_pow_right (by decide) hwide
  rcases Nat.lt_or_ge (2 * n) (2 ^ width) with hhalf | hhalf
  · rw [signExtended_of_lt hhalf, read, read, if_pos hhalf, if_pos (by omega)]
  · rw [signExtended_of_le hhalf, read, read, if_neg (by omega), if_neg (by omega)]
    omega

theorem toNat_signExtend
    {width n : Nat} (hwidth : width ≤ 64) (hn : n < 2 ^ width) :
    (UInt64.ofBitVec ((BitVec.ofNat width n).signExtend 64)).toNat =
      signExtended width 64 n := by
  have hpow : 2 ^ width ≤ 2 ^ 64 := Nat.pow_le_pow_right (by decide) hwidth
  have hbits : (BitVec.ofNat width n).toNat = n := by
    rw [BitVec.toNat_ofNat, Nat.mod_eq_of_lt hn]
  rw [UInt64.toNat_ofBitVec, BitVec.toNat_signExtend, BitVec.toNat_setWidth, hbits,
    Nat.mod_eq_of_lt (by omega)]
  rcases Nat.lt_or_ge (2 * n) (2 ^ width) with hhalf | hhalf
  · have hmsb : (BitVec.ofNat width n).msb = false := by
      rw [BitVec.msb_eq_false_iff_two_mul_lt, hbits]
      exact hhalf
    rw [signExtended_of_lt hhalf, hmsb, if_neg (by decide), Nat.add_zero]
  · have hmsb : (BitVec.ofNat width n).msb = true := by
      rw [BitVec.msb_eq_true_iff_two_mul_ge, hbits]
      exact hhalf
    rw [signExtended_of_le hhalf, hmsb, if_pos rfl]

/-- Extension to 64 bits is extension to fewer bits, of which the higher ones are
dropped. -/
theorem signExtended_mod
    {width n : Nat} {type : NumberType} (hwidth : width ≤ type.bitCount)
    (hn : n < 2 ^ width) :
    signExtended width 64 n % 2 ^ type.bitCount =
      signExtended width type.bitCount n := by
  have hpow : 2 ^ width ≤ 2 ^ type.bitCount := Nat.pow_le_pow_right (by decide) hwidth
  rcases Nat.lt_or_ge (2 * n) (2 ^ width) with hhalf | hhalf
  · rw [signExtended_of_lt hhalf, signExtended_of_lt hhalf, Nat.mod_eq_of_lt (by omega)]
  · rw [signExtended_of_le hhalf, signExtended_of_le hhalf]
    cases type with
    | i32 | f32 | i64 | f64 =>
        simp only [NumberType.bitCount] at hpow ⊢
        omega

/-- The bits that a load makes of the number of the bytes that it reads. -/
theorem LoadOp.isRead_ofBits
    {op : LoadOp} {n : Nat} {bits : UInt64} (hn : n < 2 ^ (8 * op.byteCount))
    (hbits : bits = match op.sign with
      | .unsigned => UInt64.ofNat n
      | .signed =>
          UInt64.ofBitVec ((BitVec.ofNat (8 * op.byteCount) n).signExtend 64)) :
    (Val.ofBits (.number op.type) bits).IsRead op.type op.byteCount op.sign n := by
  have hwidth := op.bitCount_le
  have hwide := op.type.bitCount_le
  have hpow : 2 ^ (8 * op.byteCount) ≤ 2 ^ op.type.bitCount :=
    Nat.pow_le_pow_right (by decide) hwidth
  have hpow' : 2 ^ op.type.bitCount ≤ 2 ^ 64 := Nat.pow_le_pow_right (by decide) hwide
  refine ⟨?_, ?_, Val.type_ofBits _ _⟩
  · rw [Val.toNat_bits_ofBits]
    exact Nat.mod_lt _ (Nat.two_pow_pos _)
  · rw [Val.toNat_bits_ofBits, hbits]
    cases op.sign with
    | unsigned =>
        simp only [Signedness.read]
        rw [UInt64.toNat_ofNat', Nat.mod_eq_of_lt (by omega),
          Nat.mod_eq_of_lt (by omega)]
    | signed =>
        simp only
        rw [toNat_signExtend (by omega) hn, signExtended_mod hwidth hn,
          Signedness.read_signExtended hwidth]

/-- A load of the full width of its type does not extend anything. -/
theorem LoadOp.Reads.sign_eq_unsigned
    {op : LoadOp} {type : NumberType} {width : Nat} {sign : Signedness}
    (h : op.Reads type width sign) (hfull : 8 * width = type.bitCount) :
    sign = .unsigned := by
  cases h with
  | i32 | i64 | f32 | f64 => rfl
  | i32From8 | i32From16 | i64From8 | i64From16 | i64From32 =>
      simp [NumberType.bitCount] at hfull

/-- A load of the full width of its type gives back the bits. -/
theorem Val.IsRead.eq_of_full
    {type : NumberType} {width : Nat} {v w : Val}
    (h : w.IsRead type width .unsigned (v.bits.toNat % 2 ^ (8 * width)))
    (hfull : 8 * width = type.bitCount) (htype : v.type = .number type)
    (hfits : v.Fits) : w = v := by
  have hbits : v.bits.toNat < 2 ^ type.bitCount := by
    have hlt := v.bits.toNat_lt
    rw [Val.Fits, htype] at hfits
    cases type with
    | i32 | f32 => exact hfits (by simp)
    | i64 | f64 => exact hlt
  have hvalue := h.value
  rw [hfull, Nat.mod_eq_of_lt hbits, Signedness.read, Signedness.read,
    Int.ofNat_inj] at hvalue
  obtain ⟨type', bits⟩ := v
  obtain ⟨type'', bits'⟩ := w
  obtain rfl := UInt64.toNat_inj.mp hvalue
  obtain rfl : type'' = type' := h.type.trans htype.symm
  rfl

/-! ## Bytes of a memory -/

namespace MemInst

/-- The number of the `count` bytes from a position on, low byte first. -/
def word (m : MemInst) (position count : Nat) : Nat :=
  ∑ i ∈ Finset.range count, (m.bytes[position + i]?.getD 0).toNat * 256 ^ i

/-- The second memory is the first one with the lowest `count` bytes of a number in
place of those from a position on, low byte first. -/
structure Stored (m : MemInst) (position count n : Nat) (m' : MemInst) : Prop where
  size : m'.bytes.size = m.bytes.size
  limits : m'.limits = m.limits
  cap : m'.cap = m.cap
  written : ∀ i < count, m'.bytes[position + i]? = some (UInt8.ofNat (n / 256 ^ i))
  kept : ∀ i, i < position ∨ position + count ≤ i → m'.bytes[i]? = m.bytes[i]?

variable {m m' : MemInst}

theorem natOfBytes_slice
    {position count : Nat} (hfit : position + count ≤ m.bytes.size) :
    natOfBytes (m.slice position count) = m.word position count := by
  rw [natOfBytes_eq_sum, length_slice hfit, word]
  refine Finset.sum_congr rfl fun i hi => ?_
  rw [List.getD_eq_getElem?_getD, getElem?_slice (Finset.mem_range.mp hi)]

theorem word_lt
    {position count : Nat} (hfit : position + count ≤ m.bytes.size) :
    m.word position count < 2 ^ (8 * count) := by
  have hlt := natOfBytes_lt (m.slice position count)
  rw [natOfBytes_slice hfit, length_slice hfit] at hlt
  rw [pow_mul]
  exact hlt

theorem stored_splice
    {position count : Nat} (hfit : position + count ≤ m.bytes.size) (n : Nat) :
    m.Stored position count n (m.splice position (bytesOfNat count n)) := by
  have hfit' : position + (bytesOfNat count n).length ≤ m.bytes.size := by
    rwa [length_bytesOfNat]
  refine ⟨size_overwrite _ _ _, rfl, rfl, fun i hi => ?_, fun i hi => ?_⟩
  · rw [splice, getElem?_overwrite hfit', length_bytesOfNat, if_pos (by omega),
      Nat.add_sub_cancel_left, getElem?_bytesOfNat n hi]
  · rw [splice, getElem?_overwrite hfit', length_bytesOfNat, if_neg (by omega)]

/-- What was stored is found again, in the same or in a smaller width. -/
theorem Stored.word_eq
    {position count n width : Nat} (h : m.Stored position count n m')
    (hwidth : width ≤ count) :
    m'.word position width = n % 2 ^ (8 * width) := by
  rw [pow_mul, show (2 : Nat) ^ 8 = 256 from rfl, ← sum_bytesOfNat, word]
  refine Finset.sum_congr rfl fun i hi => ?_
  have hi := Finset.mem_range.mp hi
  rw [h.written i (by omega), Option.getD_some]

theorem hasSize_address_iff
    {base offset : UInt32} {count : Nat} (hcount : 8 * count ≤ 64)
    (hsize : m.bytes.size < 2 ^ 64) :
    m.hasSize (address base offset) (UInt64.ofNat count) = true ↔
      base.toNat + offset.toNat + count ≤ m.bytes.size := by
  have hbase := base.toNat_lt
  have hoffset := offset.toNat_lt
  have hwidth : (UInt64.ofNat count).toNat = count := by
    rw [UInt64.toNat_ofNat', Nat.mod_eq_of_lt (by omega)]
  rw [hasSize_iff (by rw [toNat_address, hwidth]; omega) hsize, toNat_address, hwidth]

theorem load?_of_le
    {op : LoadOp} {base offset : UInt32} (hsize : m.bytes.size < 2 ^ 64)
    (hfit : base.toNat + offset.toNat + op.byteCount ≤ m.bytes.size) :
    ∃ v, m.load? op (address base offset) = some v ∧
      v.IsRead op.type op.byteCount op.sign
        (m.word (base.toNat + offset.toNat) op.byteCount) := by
  have hcount := op.bitCount_le.trans op.type.bitCount_le
  refine ⟨_, if_pos ((hasSize_address_iff hcount hsize).mpr hfit), ?_⟩
  rw [toNat_address, natOfBytes_slice hfit]
  exact LoadOp.isRead_ofBits (word_lt hfit) rfl

theorem load?_of_lt
    {op : LoadOp} {base offset : UInt32} (hsize : m.bytes.size < 2 ^ 64)
    (hover : m.bytes.size < base.toNat + offset.toNat + op.byteCount) :
    m.load? op (address base offset) = none := by
  have hcount := op.bitCount_le.trans op.type.bitCount_le
  exact if_neg fun h => Nat.not_le.mpr hover ((hasSize_address_iff hcount hsize).mp h)

theorem admits_iff
    {op : StoreOp} {base offset : UInt32} (hsize : m.bytes.size < 2 ^ 64) :
    m.admits op (address base offset) = true ↔
      base.toNat + offset.toNat + op.byteCount ≤ m.bytes.size :=
  hasSize_address_iff (op.bitCount_le.trans op.type.bitCount_le) hsize

theorem stored_store
    {op : StoreOp} {base offset : UInt32}
    (hfit : base.toNat + offset.toNat + op.byteCount ≤ m.bytes.size) (v : Val) :
    m.Stored (base.toNat + offset.toNat) op.byteCount v.bits.toNat
      (m.store op (address base offset) v) := by
  rw [store, toNat_address]
  exact stored_splice hfit v.bits.toNat

end MemInst

/-! ## Execution -/

/-- The module instance at an address has a memory, at an address of its own. -/
def Store.HasMemory (s : Store) (module addr : UInt32) (m : MemInst) : Prop :=
  ∃ inst, s.modules[module.toNat]? = some inst ∧ inst.memories.head? = some addr ∧
    s.memory addr = .ok m

theorem Store.memory_setMemory
    {s : Store} {addr : UInt32} {m : MemInst} (h : s.memory addr = .ok m)
    (m' : MemInst) :
    (s.setMemory addr m').memory addr = .ok m' := by
  obtain ⟨hlt, -⟩ := Array.getElem?_eq_some_iff.mp (lookup_eq_ok_iff.mp h)
  refine lookup_eq_ok_iff.mpr ?_
  rw [setMemory, Array.getElem?_setIfInBounds_self_of_lt hlt]

theorem Store.HasMemory.setMemory
    {s : Store} {module addr : UInt32} {m : MemInst} (h : s.HasMemory module addr m)
    (m' : MemInst) :
    (s.setMemory addr m').HasMemory module addr m' := by
  obtain ⟨inst, hinst, haddr, hmemory⟩ := h
  exact ⟨inst, hinst, haddr, memory_setMemory hmemory m'⟩

namespace Exec

variable {α : Type} {module addr : UInt32} {m : MemInst} {r : Run}

theorem memory_bind
    (h : r.session.store.HasMemory module addr m) (f : UInt32 → MemInst → Exec α) :
    (currentModule module >>= fun inst => memoryAddr inst >>= fun addr =>
      store >>= fun s => access (s.memory addr) >>= f addr) r = f addr m r := by
  obtain ⟨inst, hinst, haddr, hmemory⟩ := h
  have hmodule : currentModule module r = .ok inst r := by
    refine (bind_eq_of_eq_ok rfl : _ =
      present r.session.store.modules[module.toNat]? r).trans ?_
    rw [hinst]
    rfl
  have hfirst : memoryAddr inst r = .ok addr r := by
    obtain ⟨rest, hrest⟩ := List.head?_eq_some_iff.mp haddr
    rw [memoryAddr, hrest]
    rfl
  have haccess : access (r.session.store.memory addr) r = .ok m r := by
    rw [hmemory]
    rfl
  rw [bind_eq_of_eq_ok hmodule, bind_eq_of_eq_ok hfirst]
  exact bind_eq_of_eq_ok haccess

theorem pop_eq_ok
    {v : Val} {below : Stack} (hstack : r.stack = .value v :: below) :
    pop r = .ok v { r with stack := below } := by
  rw [pop, take, hstack]
  rfl

theorem popTyped_eq_ok
    {v : Val} {below : Stack} {type : ValueType} (hstack : r.stack = .value v :: below)
    (htype : v.type = type) :
    popTyped type r = .ok v { r with stack := below } := by
  rw [popTyped, take, hstack, Stack.popTyped, Stack.pop]
  simp only [htype, if_true]

theorem popU32_eq_ok
    {v : Val} {below : Stack} (hstack : r.stack = .value v :: below)
    (htype : v.type = .i32) :
    popU32 r = .ok v.u32 { r with stack := below } :=
  bind_eq_of_eq_ok (popTyped_eq_ok hstack htype)

theorem transfer_load
    {op : LoadOp} {arg : MemArg} {base : Val} {below : Stack}
    (hmemory : r.session.store.HasMemory module addr m)
    (hstack : r.stack = .value base :: below) (hbase : base.type = .i32) :
    transfer module (.load op arg) r =
      match m.load? op (MemInst.address base.u32 arg.offset) with
      | some v => .ok .next { r with stack := .value v :: below }
      | none => .error (.trap .memoryAccess) { r with stack := below } := by
  have hplain : plain module (.load op arg) r =
      match m.load? op (MemInst.address base.u32 arg.offset) with
      | some v => .ok () { r with stack := .value v :: below }
      | none => .error (.trap .memoryAccess) { r with stack := below } := by
    refine (memory_bind hmemory _).trans
      ((bind_eq_of_eq_ok (popU32_eq_ok hstack hbase)).trans ?_)
    cases m.load? op (MemInst.address base.u32 arg.offset) <;> rfl
  cases hload : m.load? op (MemInst.address base.u32 arg.offset) with
  | some v =>
      rw [hload] at hplain
      exact bind_eq_of_eq_ok hplain
  | none =>
      rw [hload] at hplain
      exact bind_eq_of_eq_error hplain

theorem transfer_store
    {op : StoreOp} {arg : MemArg} {v base : Val} {below : Stack}
    (hmemory : r.session.store.HasMemory module addr m)
    (hstack : r.stack = .value v :: .value base :: below) (hbase : base.type = .i32) :
    transfer module (.store op arg) r =
      if m.admits op (MemInst.address base.u32 arg.offset) then
        .ok .next { r with
          session := r.session.withStore
            (r.session.store.setMemory addr
              (m.store op (MemInst.address base.u32 arg.offset) v))
          stack := below }
      else .error (.trap .memoryAccess) { r with stack := below } := by
  obtain ⟨-, -, -, haccess⟩ := id hmemory
  have hplain : plain module (.store op arg) r =
      (if m.admits op (MemInst.address base.u32 arg.offset) then
        modifyStore (·.modifyMemory addr
          (·.store op (MemInst.address base.u32 arg.offset) v))
      else trap .memoryAccess : Exec Unit) { r with stack := below } := by
    refine (memory_bind hmemory _).trans
      ((bind_eq_of_eq_ok (pop_eq_ok hstack)).trans ?_)
    exact bind_eq_of_eq_ok (popU32_eq_ok rfl hbase)
  by_cases hadmits : m.admits op (MemInst.address base.u32 arg.offset) = true
  · rw [if_pos hadmits] at hplain ⊢
    have hset : r.session.store.modifyMemory addr
          (·.store op (MemInst.address base.u32 arg.offset) v) =
        r.session.store.setMemory addr
          (m.store op (MemInst.address base.u32 arg.offset) v) :=
      Store.modifyMemory_eq_setMemory haccess
    rw [← hset]
    exact bind_eq_of_eq_ok hplain
  · rw [if_neg hadmits] at hplain ⊢
    exact bind_eq_of_eq_error hplain

end Exec

namespace Engine

open Exec

variable {fuel : Nat} {setting : Setting} {module addr : UInt32} {m m' : MemInst}
  {r r' : Run} {below : Stack}

section Load

variable {op : LoadOp} {arg : MemArg} {base : Val}

theorem exec_load_of_lt
    (hmemory : r.session.store.HasMemory module addr m) (hsize : m.bytes.size < 2 ^ 64)
    (hstack : r.stack = .value base :: below) (hbase : base.type = .i32)
    (h : Dispatches setting (.load op arg) r r')
    (hover : m.bytes.size < base.u32.toNat + arg.offset.toNat + op.byteCount) :
    exec (fuel + 1) setting module (.load op arg) r =
      .error (.trap .memoryAccess) { r' with
        session := r.session, stack := below } := by
  have htransfer : transfer module (.load op arg) r' = _ :=
    transfer_load (h.session_eq ▸ hmemory) (h.stack_eq.trans hstack) hbase
  rw [MemInst.load?_of_lt hsize hover] at htransfer
  rw [h.exec_of_error htransfer, h.session_eq]

theorem exec_load_of_le
    (hmemory : r.session.store.HasMemory module addr m) (hsize : m.bytes.size < 2 ^ 64)
    (hstack : r.stack = .value base :: below) (hbase : base.type = .i32)
    (h : Dispatches setting (.load op arg) r r')
    (hfit : base.u32.toNat + arg.offset.toNat + op.byteCount ≤ m.bytes.size) :
    ∃ v : Val, v.IsRead op.type op.byteCount op.sign
        (m.word (base.u32.toNat + arg.offset.toNat) op.byteCount) ∧
      exec (fuel + 1) setting module (.load op arg) r =
        .ok .next { r' with session := r.session, stack := .value v :: below } := by
  obtain ⟨v, hload, hgives⟩ := MemInst.load?_of_le hsize hfit
  have htransfer : transfer module (.load op arg) r' = _ :=
    transfer_load (h.session_eq ▸ hmemory) (h.stack_eq.trans hstack) hbase
  rw [hload] at htransfer
  refine ⟨v, hgives, ?_⟩
  rw [h.exec_of_next htransfer, h.session_eq]

end Load

section Store

variable {op : StoreOp} {arg : MemArg} {v base : Val}

theorem exec_store_of_lt
    (hmemory : r.session.store.HasMemory module addr m) (hsize : m.bytes.size < 2 ^ 64)
    (hstack : r.stack = .value v :: .value base :: below) (hbase : base.type = .i32)
    (h : Dispatches setting (.store op arg) r r')
    (hover : m.bytes.size < base.u32.toNat + arg.offset.toNat + op.byteCount) :
    exec (fuel + 1) setting module (.store op arg) r =
      .error (.trap .memoryAccess) { r' with
        session := r.session, stack := below } := by
  have htransfer : transfer module (.store op arg) r' = _ :=
    transfer_store (h.session_eq ▸ hmemory) (h.stack_eq.trans hstack) hbase
  rw [if_neg fun hadmits =>
    Nat.not_le.mpr hover ((MemInst.admits_iff hsize).mp hadmits)] at htransfer
  rw [h.exec_of_error htransfer, h.session_eq]

theorem exec_store_of_le
    (hmemory : r.session.store.HasMemory module addr m) (hsize : m.bytes.size < 2 ^ 64)
    (hstack : r.stack = .value v :: .value base :: below) (hbase : base.type = .i32)
    (h : Dispatches setting (.store op arg) r r')
    (hfit : base.u32.toNat + arg.offset.toNat + op.byteCount ≤ m.bytes.size) :
    ∃ m', m.Stored (base.u32.toNat + arg.offset.toNat) op.byteCount v.bits.toNat m' ∧
      exec (fuel + 1) setting module (.store op arg) r =
        .ok .next { r' with
          session := r.session.withStore (r.session.store.setMemory addr m')
          stack := below } := by
  have htransfer : transfer module (.store op arg) r' = _ :=
    transfer_store (h.session_eq ▸ hmemory) (h.stack_eq.trans hstack) hbase
  rw [if_pos ((MemInst.admits_iff hsize).mpr hfit)] at htransfer
  refine ⟨_, MemInst.stored_store hfit v, ?_⟩
  rw [h.exec_of_next htransfer, h.session_eq]

end Store

/-- Whatever run loads from the memory where bytes of a value were stored finds the low
bits of the value, extended as the load says, and the value itself if all of it was
stored and is loaded under its type. -/
def FindsAgain (m : MemInst) (position width : Nat) (v : Val) : Prop :=
  ∀ {fuel : Nat} {setting : Setting} {module addr : UInt32} {load : LoadOp}
    {type : NumberType} {count : Nat}
    {sign : Signedness} {arg : MemArg} {base : Val} {below : Stack} {r r' : Run},
      load.Reads type count sign →
    r.session.store.HasMemory module addr m → r.stack = .value base :: below →
    base.type = .i32 →
    base.u32.toNat + arg.offset.toNat = position → count ≤ width →
    Dispatches setting (.load load arg) r r' →
    ∃ w : Val, exec (fuel + 1) setting module (.load load arg) r =
        .ok .next { r' with session := r.session, stack := .value w :: below } ∧
      w.IsRead type count sign (v.bits.toNat % 2 ^ (8 * count)) ∧
      (8 * count = type.bitCount → v.type = .number type → v.Fits → w = v)

theorem findsAgain_of_stored
    {position width : Nat} {v : Val} (h : m.Stored position width v.bits.toNat m')
    (hsize : m.bytes.size < 2 ^ 64) (hfit : position + width ≤ m.bytes.size) :
    FindsAgain m' position width v := by
  intro fuel setting module addr load type count sign arg base below r r' hreads hmemory
    hstack hbase hposition hwidth hdispatches
  have hsign := hreads.sign_eq_unsigned
  obtain ⟨rfl, rfl, rfl⟩ := hreads.eq
  subst hposition
  have hfit' : base.u32.toNat + arg.offset.toNat + load.byteCount ≤ m'.bytes.size := by
    rw [h.size]
    omega
  obtain ⟨w, hread, hexec⟩ :=
    exec_load_of_le hmemory (h.size ▸ hsize) hstack hbase hdispatches hfit'
  rw [h.word_eq hwidth] at hread
  refine ⟨w, hexec, hread, fun hfull => ?_⟩
  rw [hsign hfull] at hread
  exact hread.eq_of_full hfull

/-- Loads and stores are exact.  Each has the type, the width and the extension of its
name.  An access traps exactly if its last byte lies beyond the memory, and then nothing
has changed.  Otherwise a load gives what the bytes at the effective address stand for,
and a store changes these bytes alone, so that the value can be loaded again. -/
theorem memory_accesses_exact
    (fuel : Nat) (hmemory : r.session.store.HasMemory module addr m)
    (hsize : m.bytes.size < 2 ^ 64) :
    (∀ op : LoadOp, op.Reads op.type op.byteCount op.sign) ∧
    (∀ op : StoreOp, op.Writes op.type op.byteCount) ∧
    (∀ {op : LoadOp} {type : NumberType} {width : Nat} {sign : Signedness}
      {arg : MemArg} {base : Val} {below : Stack} {r' : Run}, op.Reads type width sign →
      r.stack = .value base :: below → base.type = .i32 →
      Dispatches setting (.load op arg) r r' →
      if base.u32.toNat + arg.offset.toNat + width ≤ m.bytes.size then
        ∃ v : Val, v.IsRead type width sign
            (m.word (base.u32.toNat + arg.offset.toNat) width) ∧
          exec (fuel + 1) setting module (.load op arg) r =
            .ok .next { r' with session := r.session, stack := .value v :: below }
      else
        exec (fuel + 1) setting module (.load op arg) r =
          .error (.trap .memoryAccess) { r' with
            session := r.session, stack := below }) ∧
    (∀ {op : StoreOp} {type : NumberType} {width : Nat} {arg : MemArg} {v base : Val}
        {below : Stack} {r' : Run},
      op.Writes type width →
      r.stack = .value v :: .value base :: below → base.type = .i32 →
      Dispatches setting (.store op arg) r r' →
      if base.u32.toNat + arg.offset.toNat + width ≤ m.bytes.size then
        ∃ m', m.Stored (base.u32.toNat + arg.offset.toNat) width v.bits.toNat m' ∧
          exec (fuel + 1) setting module (.store op arg) r =
            .ok .next { r' with
              session := r.session.withStore (r.session.store.setMemory addr m')
              stack := below } ∧
          (r.session.store.setMemory addr m').HasMemory module addr m' ∧
          FindsAgain m' (base.u32.toNat + arg.offset.toNat) width v
      else
        exec (fuel + 1) setting module (.store op arg) r =
          .error (.trap .memoryAccess) { r' with
            session := r.session, stack := below }) := by
  refine ⟨LoadOp.reads, StoreOp.writes, ?_, ?_⟩
  · intro op type width sign arg base below r' hreads hstack hbase h
    obtain ⟨rfl, rfl, rfl⟩ := hreads.eq
    by_cases hfit : base.u32.toNat + arg.offset.toNat + op.byteCount ≤ m.bytes.size
    · rw [if_pos hfit]
      exact exec_load_of_le hmemory hsize hstack hbase h hfit
    · rw [if_neg hfit]
      exact exec_load_of_lt hmemory hsize hstack hbase h (Nat.not_le.mp hfit)
  · intro op type width arg v base below r' hwrites hstack hbase h
    obtain ⟨rfl, rfl⟩ := hwrites.eq
    by_cases hfit : base.u32.toNat + arg.offset.toNat + op.byteCount ≤ m.bytes.size
    · rw [if_pos hfit]
      obtain ⟨m', hstored, hexec⟩ := exec_store_of_le hmemory hsize hstack hbase h hfit
      exact ⟨m', hstored, hexec, hmemory.setMemory m',
        findsAgain_of_stored hstored hsize hfit⟩
    · rw [if_neg hfit]
      exact exec_store_of_lt hmemory hsize hstack hbase h (Nat.not_le.mp hfit)

end Engine

/-- A memory of sixteen zero bytes. -/
def MemInst.sixteen : MemInst where
  bytes := Array.replicate 16 0
  limits := ⟨0, none⟩
  cap := 0

/-- A function of the given body, in a module instance with a memory of sixteen
bytes. -/
def Session.scratch (body : List Instr) : Session where
  store := {
    engine := some {}
    functions := #[{ kind := .wasm, type := some {}, name := "main", body }]
    memories := #[.sixteen]
    modules := #[
      { name := "scratch", addr := 0, types := [], functions := [0], tables := [],
        memories := [0], globals := []
        exports := [] }] }

/-- A signaling NaN with a payload is stored in the last eight bytes of a memory.  It
can be loaded from there, and its lowest byte, loaded with its sign, gives a negative
integer. -/
theorem Engine.nan_stored_in_last_bytes :
    let setting : Setting := { config := {}, context := .background }
    let r : Run :=
      { session := .scratch [], stack := [.value ⟨.f64, 0x7ff4000000000080⟩,
        .value (.ofU32 4)] }
    ∃ m', MemInst.sixteen.Stored 8 8 0x7ff4000000000080 m' ∧
      exec 1 setting 0 (.store .f64 ⟨3, 4⟩) r =
        .ok .next { r with
          session := r.session.withStore (r.session.store.setMemory 0 m'), stack :=
            [] } ∧
      FindsAgain m' 8 8 ⟨.f64, 0x7ff4000000000080⟩ ∧
      ∀ r' : Run, r'.session.store.HasMemory 0 0 m' → r'.stack = [.value (.ofU32 8)] →
        exec 1 setting 0 (.load (.i32From8 .signed) ⟨0, 0⟩) r' =
          .ok .next { r' with stack := [.value ⟨.i32, 0xffffff80⟩] } := by
  intro setting r
  have hmemory : r.session.store.HasMemory 0 0 .sixteen := ⟨_, rfl, rfl, rfl⟩
  have hdispatches : Dispatches setting (.store .f64 ⟨3, 4⟩) r r := rfl
  have hstores := (memory_accesses_exact 0 hmemory (by decide)).2.2.2 .f64
    rfl rfl hdispatches
  rw [if_pos (by decide)] at hstores
  obtain ⟨m', hstored, hexec, -, hagain⟩ := hstores
  refine ⟨m', hstored, hexec, hagain, fun r' hmemory' hstack => ?_⟩
  have hdispatches' : Dispatches setting (.load (.i32From8 .signed) ⟨0, 0⟩) r' r' := rfl
  have hloads := (memory_accesses_exact 0 hmemory' (by rw [hstored.size]; decide)).2.2.1
    (.i32From8 .signed) hstack rfl hdispatches'
  rw [hstored.size, if_pos (by decide)] at hloads
  obtain ⟨⟨type, bits⟩, hread, hload⟩ := hloads
  have hword : m'.word 8 1 = 128 := hstored.word_eq (by decide)
  obtain rfl : type = .i32 := hread.type
  obtain rfl : bits = 0xffffff80 := by
    have hvalue : Signedness.read .signed 32 bits.toNat = Signedness.read .signed
        (8 * 1) (m'.word 8 1) := hread.value
    rw [hword] at hvalue
    simp only [Signedness.read] at hvalue
    have hfits : bits.toNat < 2 ^ 32 := hread.fits
    refine UInt64.toNat_inj.mp (?_ : bits.toNat = 4294967168)
    split at hvalue <;> omega
  exact hload

end WebAssembly
