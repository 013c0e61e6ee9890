import Mathlib.Data.Int.ModEq
import WebAssembly.Proofs.MemoryAccess

/-!
# Integer instructions

What the integer operators do to numbers of their width: sums, differences and products
modulo a power of two, truncated division with its remainder, shifts as multiplication
and division by a power of two, rotations and counts bit by bit.  Operands are read as
unsigned numbers or in two's complement, as the operator says.  Division and remainder
alone can trap.
-/

namespace WebAssembly

/-! ## What the operators mean -/

namespace IntBinary

/-- Why the operator fails on two numbers of `n` bits, if it does. -/
def failure? (op : IntBinary) (n a b : Nat) : Option ArithmeticFailure :=
  match op with
  | .div .signed =>
    if b = 0 then some .divideByZero
    else if Signedness.signed.read n a = -(2 ^ (n - 1) : Nat) ∧
      Signedness.signed.read n b = -1 then some .overflow
    else none
  | .div .unsigned | .rem _ => if b = 0 then some .divideByZero else none
  | _ => none

/-- The operator makes the third of three numbers of `n` bits out of the first two. -/
def Gives (op : IntBinary) (n a b c : Nat) : Prop :=
  match op with
  | .add => c = (a + b) % 2 ^ n
  | .sub => (c : Int) = ((a : Int) - b) % (2 ^ n : Nat)
  | .mul => c = a * b % 2 ^ n
  | .div sign => sign.read n c = (sign.read n a).tdiv (sign.read n b)
  | .rem sign => sign.read n c = (sign.read n a).tmod (sign.read n b)
  | .and => ∀ i < n, c.testBit i = (a.testBit i && b.testBit i)
  | .or => ∀ i < n, c.testBit i = (a.testBit i || b.testBit i)
  | .xor => ∀ i < n, c.testBit i = (a.testBit i ^^ b.testBit i)
  | .shl => c = a * 2 ^ (b % n) % 2 ^ n
  | .shr sign => sign.read n c = (sign.read n a).fdiv (2 ^ (b % n) : Nat)
  | .rotl => ∀ i < n, c.testBit ((i + b) % n) = a.testBit i
  | .rotr => ∀ i < n, c.testBit (((i : Int) - b) % n).toNat = a.testBit i

end IntBinary

/-- The comparison holds between two numbers of `n` bits. -/
def IntCompare.Relates (op : IntCompare) (n a b : Nat) : Prop :=
  match op with
  | .eq => a = b
  | .ne => a ≠ b
  | .lt sign => sign.read n a < sign.read n b
  | .gt sign => sign.read n b < sign.read n a
  | .le sign => sign.read n a ≤ sign.read n b
  | .ge sign => sign.read n b ≤ sign.read n a

/-- The operator counts in a number of `n` bits: the zeros above its highest one, the
zeros below its lowest one, or all its ones. -/
def IntUnary.Gives (op : IntUnary) (n a c : Nat) : Prop :=
  match op with
  | .clz =>
    if a = 0 then c = n
    else c < n ∧ a.testBit (n - 1 - c) = true ∧ ∀ i, n - 1 - c < i → a.testBit i = false
  | .ctz =>
    if a = 0 then c = n else c < n ∧ a.testBit c = true ∧ ∀ i < c, a.testBit i = false
  | .popcnt => c = (List.range n).countP a.testBit

namespace BinaryOp

/-- The operators that take two integers, with their type and the type of the result. -/
inductive OnIntegers : BinaryOp → NumberType → NumberType → Prop
  | int32 (op : IntBinary) : OnIntegers (.int .w32 op) .i32 .i32
  | int64 (op : IntBinary) : OnIntegers (.int .w64 op) .i64 .i64
  | compare32 (op : IntCompare) : OnIntegers (.intCompare .w32 op) .i32 .i32
  | compare64 (op : IntCompare) : OnIntegers (.intCompare .w64 op) .i64 .i32

/-- Why the operator fails on two integers, if it does. -/
def failure? (op : BinaryOp) (a b : Nat) : Option ArithmeticFailure :=
  match op with
  | .int width op => op.failure? width.bits a b
  | _ => none

/-- The operator makes the third number out of the first two. -/
def Gives (op : BinaryOp) (a b c : Nat) : Prop :=
  match op with
  | .int width op => op.Gives width.bits a b c
  | .intCompare width op =>
    c = 1 ∧ op.Relates width.bits a b ∨ c = 0 ∧ ¬op.Relates width.bits a b
  | _ => False

end BinaryOp

namespace UnaryOp

/-- The operators that take an integer and give one, with the two types. -/
inductive OnIntegers : UnaryOp → NumberType → NumberType → Prop
  | eqz32 : OnIntegers (.eqz .w32) .i32 .i32
  | eqz64 : OnIntegers (.eqz .w64) .i64 .i32
  | int32 (op : IntUnary) : OnIntegers (.int .w32 op) .i32 .i32
  | int64 (op : IntUnary) : OnIntegers (.int .w64 op) .i64 .i64
  | wrap : OnIntegers (.convert .wrap) .i64 .i32
  | extend (sign : Signedness) : OnIntegers (.convert (.extend sign)) .i32 .i64
  | i32From8 : OnIntegers (.signExtend .i32From8) .i32 .i32
  | i32From16 : OnIntegers (.signExtend .i32From16) .i32 .i32
  | i64From8 : OnIntegers (.signExtend .i64From8) .i64 .i64
  | i64From16 : OnIntegers (.signExtend .i64From16) .i64 .i64
  | i64From32 : OnIntegers (.signExtend .i64From32) .i64 .i64

/-- The operator makes the second number out of the first. -/
def Gives (op : UnaryOp) (a c : Nat) : Prop :=
  match op with
  | .eqz _ => c = if a = 0 then 1 else 0
  | .int width op => op.Gives width.bits a c
  | .convert .wrap => c = a % 2 ^ 32
  | .convert (.extend sign) => sign.read 64 c = sign.read 32 a
  | .signExtend .i32From8 =>
    Signedness.signed.read 32 c = Signedness.signed.read 8 (a % 2 ^ 8)
  | .signExtend .i32From16 =>
    Signedness.signed.read 32 c = Signedness.signed.read 16 (a % 2 ^ 16)
  | .signExtend .i64From8 =>
    Signedness.signed.read 64 c = Signedness.signed.read 8 (a % 2 ^ 8)
  | .signExtend .i64From16 =>
    Signedness.signed.read 64 c = Signedness.signed.read 16 (a % 2 ^ 16)
  | .signExtend .i64From32 =>
    Signedness.signed.read 64 c = Signedness.signed.read 32 (a % 2 ^ 32)
  | _ => False

end UnaryOp

/-- The number that the bits of a value stand for, of which the type has only the
lowest. -/
def Val.number (v : Val) (type : NumberType) : Nat :=
  v.bits.toNat % 2 ^ type.bitCount

def NumberType.value (type : NumberType) (n : Nat) : Val :=
  ⟨.number type, UInt64.ofNat n⟩

/-! ## Bit vectors as numbers -/

section

variable {n : Nat} {x y : BitVec n}

theorem Signedness.read_toNat_signed (x : BitVec n) :
    Signedness.signed.read n x.toNat = x.toInt := by
  rw [Signedness.read, BitVec.toInt_eq_toNat_cond]

theorem Signedness.read_toNat_signExtend {m : Nat} (h : n ≤ m) (x : BitVec n) :
    Signedness.signed.read m (x.signExtend m).toNat =
      Signedness.signed.read n x.toNat := by
  rw [read_toNat_signed, BitVec.toInt_signExtend_of_le h, read_toNat_signed]

theorem toInt_eq_intMin_iff (hn : 0 < n) :
    x.toInt = -(2 ^ (n - 1) : Nat) ↔ x = BitVec.intMin n := by
  rw [← BitVec.toInt_inj, BitVec.toInt_intMin_of_pos hn]
  simp

theorem toInt_eq_neg_one_iff (hn : 0 < n) : x.toInt = -1 ↔ x = -1 := by
  have h : (-1 : BitVec n).toInt = -1 := by
    simp [BitVec.neg_one_eq_allOnes, BitVec.toInt_allOnes, hn]
  rw [← BitVec.toInt_inj, h]

theorem toNat_eq_zero_iff : x.toNat = 0 ↔ x = 0 := by
  rw [← BitVec.toNat_inj]
  simp

theorem IntBinary.failure?_div_signed (hn : 0 < n) (x y : BitVec n) :
    (IntBinary.div .signed).failure? n x.toNat y.toNat =
      if y = 0 then some .divideByZero
      else if x = BitVec.intMin n ∧ y = -1 then some .overflow else none := by
  simp only [failure?, Signedness.read_toNat_signed, toInt_eq_intMin_iff hn,
    toInt_eq_neg_one_iff hn, toNat_eq_zero_iff]

theorem IntBinary.apply_of_failure
    {op : IntBinary} {cause : ArithmeticFailure} (hn : 0 < n)
    (h : op.failure? n x.toNat y.toNat = some cause) : op.apply x y = .error cause := by
  cases op with
  | div sign =>
      cases sign with
      | signed =>
          rw [failure?_div_signed hn] at h
          rw [apply]
          by_cases hy : y = 0
          · rw [if_pos hy] at h ⊢
            cases h
            rfl
          · by_cases hover : x = BitVec.intMin n ∧ y = -1
            · rw [if_neg hy, if_pos hover] at h ⊢
              cases h
              rfl
            · rw [if_neg hy, if_neg hover] at h
              cases h
      | unsigned =>
          simp only [failure?, toNat_eq_zero_iff, Option.ite_none_right_eq_some,
            Option.some.injEq] at h
          obtain ⟨hy, rfl⟩ := h
          exact if_pos hy
  | rem sign =>
      simp only [failure?, toNat_eq_zero_iff, Option.ite_none_right_eq_some,
        Option.some.injEq] at h
      obtain ⟨hy, rfl⟩ := h
      cases sign <;> exact if_pos hy
  | _ => cases h

theorem IntBinary.gives_sub (x y : BitVec n) :
    IntBinary.sub.Gives n x.toNat y.toNat (x - y).toNat := by
  have hy : y.toNat ≤ 2 ^ n := y.isLt.le
  have hsum : ((2 ^ n : Nat) : Int) - y.toNat + x.toNat = x.toNat - y.toNat +
      (2 ^ n : Nat) := by omega
  rw [Gives, BitVec.toNat_sub, Int.natCast_emod, Int.natCast_add, Int.natCast_sub hy,
    hsum, Int.add_emod_right]

theorem IntBinary.gives_div
    {sign : Signedness} (hn : 0 < n)
    (h : (IntBinary.div sign).failure? n x.toNat y.toNat = none) :
    ∃ z, (IntBinary.div sign).apply x y = .ok z ∧
      (IntBinary.div sign).Gives n x.toNat y.toNat z.toNat := by
  cases sign with
  | signed =>
      rw [failure?_div_signed hn] at h
      have hy : y ≠ 0 := by
        rintro rfl
        simp at h
      have hfits : ¬(x = BitVec.intMin n ∧ y = -1) := by
        intro hover
        rw [if_neg hy, if_pos hover] at h
        cases h
      refine ⟨x.sdiv y, by rw [apply, if_neg hy, if_neg hfits], ?_⟩
      simp only [Gives, Signedness.read_toNat_signed]
      exact BitVec.toInt_sdiv_of_ne_or_ne x y (Decidable.not_and_iff_or_not.mp hfits)
  | unsigned =>
      have hy : y ≠ 0 := by
        rintro rfl
        simp [failure?] at h
      refine ⟨x / y, by rw [apply, if_neg hy], ?_⟩
      simp only [Gives, Signedness.read]
      rw [BitVec.toNat_udiv, Int.ofNat_tdiv]

theorem IntBinary.gives_rem
    {sign : Signedness} (h : (IntBinary.rem sign).failure? n x.toNat y.toNat = none) :
    ∃ z, (IntBinary.rem sign).apply x y = .ok z ∧
      (IntBinary.rem sign).Gives n x.toNat y.toNat z.toNat := by
  have hy : y ≠ 0 := by
    rintro rfl
    simp [failure?] at h
  cases sign with
  | signed =>
      refine ⟨x.srem y, by rw [apply, if_neg hy], ?_⟩
      simp only [Gives, Signedness.read_toNat_signed]
      exact BitVec.toInt_srem x y
  | unsigned =>
      refine ⟨x % y, by rw [apply, if_neg hy], ?_⟩
      simp only [Gives, Signedness.read]
      rw [BitVec.toNat_umod, Int.ofNat_tmod]

theorem IntBinary.gives_shl (x : BitVec n) (k : Nat) :
    IntBinary.shl.Gives n x.toNat k (x <<< (k % n)).toNat := by
  rw [Gives, BitVec.toNat_shiftLeft, Nat.shiftLeft_eq]

theorem IntBinary.gives_shr (sign : Signedness) (x y : BitVec n) :
    ∃ z, (IntBinary.shr sign).apply x y = .ok z ∧
      (IntBinary.shr sign).Gives n x.toNat y.toNat z.toNat := by
  cases sign with
  | signed =>
      refine ⟨_, rfl, ?_⟩
      simp only [Gives, Signedness.read_toNat_signed]
      rw [BitVec.toInt_sshiftRight, Int.shiftRight_eq_div_pow,
        Int.fdiv_eq_ediv_of_nonneg _ (Int.natCast_nonneg _)]
  | unsigned =>
      refine ⟨_, rfl, ?_⟩
      simp only [Gives, Signedness.read]
      rw [BitVec.toNat_ushiftRight, Nat.shiftRight_eq_div_pow, Int.ofNat_fdiv]

/-- Adding to a position and wrapping around at the width. -/
theorem add_mod_width {i k : Nat} (hi : i < n) :
    (i + k) % n = if i + k % n < n then i + k % n else i + k % n - n := by
  have hk := Nat.mod_lt k (Nat.zero_lt_of_lt hi)
  rw [Nat.add_mod, Nat.mod_eq_of_lt hi]
  split
  · rename_i h
    exact Nat.mod_eq_of_lt h
  · rw [Nat.mod_eq_sub_mod (by omega), Nat.mod_eq_of_lt (by omega)]

theorem toNat_sub_emod_width {i k : Nat} (hi : i < n) :
    (((i : Int) - k) % n).toNat = if k % n ≤ i then i - k % n else i + n - k % n := by
  have hk := Nat.mod_lt k (Nat.zero_lt_of_lt hi)
  have hmod : ((i : Int) - k) % n = ((i : Int) - (k % n : Nat)) % n := by
    rw [Int.sub_emod, ← Int.natCast_emod i, Nat.mod_eq_of_lt hi, ← Int.natCast_emod]
  rw [hmod]
  split
  · rw [Int.emod_eq_of_lt (by omega) (by omega)]
    omega
  · rw [← Int.add_emod_right, Int.emod_eq_of_lt (by omega) (by omega)]
    omega

theorem IntBinary.gives_rotl (x : BitVec n) (k : Nat) :
    IntBinary.rotl.Gives n x.toNat k (x.rotateLeft (k % n)).toNat := by
  intro i hi
  have hk := Nat.mod_lt k (Nat.zero_lt_of_lt hi)
  simp only [BitVec.testBit_toNat, BitVec.getLsbD_rotateLeft, Nat.mod_mod]
  rw [add_mod_width hi]
  -- The bit stays below the width, or comes in again from below.
  split
  · rename_i h
    simp [h, Nat.not_lt.mpr (Nat.le_add_left (k % n) i)]
  · rename_i h
    have h1 : i + k % n - n < k % n := by omega
    have h2 : n - k % n + (i + k % n - n) = i := by omega
    simp [h1, h2]

theorem IntBinary.gives_rotr (x : BitVec n) (k : Nat) :
    IntBinary.rotr.Gives n x.toNat k (x.rotateRight (k % n)).toNat := by
  intro i hi
  have hk := Nat.mod_lt k (Nat.zero_lt_of_lt hi)
  simp only [BitVec.testBit_toNat, BitVec.getLsbD_rotateRight, Nat.mod_mod]
  rw [toNat_sub_emod_width hi]
  split
  · rename_i h
    have h1 : i - k % n < n - k % n := by omega
    have h2 : k % n + (i - k % n) = i := by omega
    simp [h1, h2]
  · rename_i h
    have h1 : ¬i + n - k % n < n - k % n := by omega
    have h2 : i + n - k % n < n := by omega
    have h3 : i + n - k % n - (n - k % n) = i := by omega
    simp [h1, h2, h3]

theorem IntBinary.exists_apply
    {op : IntBinary} (hn : 0 < n) (h : op.failure? n x.toNat y.toNat = none) :
    ∃ z, op.apply x y = .ok z ∧ op.Gives n x.toNat y.toNat z.toNat := by
  cases op with
  | add => exact ⟨_, rfl, BitVec.toNat_add x y⟩
  | sub => exact ⟨_, rfl, gives_sub x y⟩
  | mul => exact ⟨_, rfl, BitVec.toNat_mul x y⟩
  | div sign => exact gives_div hn h
  | rem sign => exact gives_rem h
  | and => exact ⟨_, rfl, fun i _ => by simp⟩
  | or => exact ⟨_, rfl, fun i _ => by simp⟩
  | xor => exact ⟨_, rfl, fun i _ => by simp⟩
  | shl => exact ⟨_, rfl, gives_shl x y.toNat⟩
  | shr sign => exact gives_shr sign x y
  | rotl => exact ⟨_, rfl, gives_rotl x y.toNat⟩
  | rotr => exact ⟨_, rfl, gives_rotr x y.toNat⟩

theorem IntCompare.holds_iff_relates (op : IntCompare) (x y : BitVec n) :
    op.holds x y = true ↔ op.Relates n x.toNat y.toNat := by
  cases op with
  | eq => simp [holds, Relates, BitVec.toNat_inj]
  | ne => simp [holds, Relates, BitVec.toNat_inj]
  | lt sign | gt sign =>
      cases sign with
      | signed =>
          simp [holds, Relates, Signedness.read_toNat_signed, BitVec.slt_iff_toInt_lt]
      | unsigned =>
          simp [holds, Relates, Signedness.read, BitVec.ult_iff_lt, BitVec.lt_def]
  | le sign | ge sign =>
      cases sign with
      | signed =>
          simp [holds, Relates, Signedness.read_toNat_signed, BitVec.sle_iff_toInt_le]
      | unsigned =>
          simp [holds, Relates, Signedness.read, BitVec.ule_iff_le, BitVec.le_def]

theorem toNat_natCast_width : (n : BitVec n).toNat = n := by
  rw [BitVec.natCast_eq_ofNat, BitVec.toNat_ofNat, Nat.mod_eq_of_lt Nat.lt_two_pow_self]

namespace IntUnary

theorem gives_clz (hn : 0 < n) (x : BitVec n) :
    IntUnary.clz.Gives n x.toNat x.clz.toNat := by
  simp only [Gives, toNat_eq_zero_iff]
  split
  · rename_i hx
    have hclz : x.clz = n := BitVec.clz_eq_iff_eq_zero.mpr hx
    rw [hclz, toNat_natCast_width]
  · rename_i hx
    have hlt : x.clz.toNat < n := by
      have h := BitVec.clz_lt_iff_ne_zero.mpr hx
      rwa [BitVec.lt_def, toNat_natCast_width] at h
    refine ⟨hlt, BitVec.getLsbD_true_clz_of_ne_zero hn hx,
      fun i hi => Nat.testBit_lt_two_pow ?_⟩
    exact BitVec.toNat_lt_two_pow_sub_clz.trans_le
      (Nat.pow_le_pow_right (by decide) (by omega))

theorem gives_ctz (x : BitVec n) : IntUnary.ctz.Gives n x.toNat x.ctz.toNat := by
  simp only [Gives, toNat_eq_zero_iff]
  split
  · rename_i hx
    -- The trailing zeros are the leading ones of the reversed number.
    have hreverse : x.reverse = 0 := BitVec.reverse_eq_zero_iff.mpr hx
    have hctz : x.ctz = n := BitVec.clz_eq_iff_eq_zero.mpr hreverse
    rw [hctz, toNat_natCast_width]
  · rename_i hx
    have hlt : x.ctz.toNat < n := by
      have h := BitVec.ctz_lt_iff_ne_zero.mpr hx
      rwa [BitVec.lt_def, toNat_natCast_width] at h
    exact ⟨hlt, BitVec.getLsbD_true_ctz_of_ne_zero hx,
      fun i hi => BitVec.getLsbD_false_of_lt_ctz hi⟩

theorem cpopNatRec_eq_countP (x : BitVec n) (k : Nat) :
    x.cpopNatRec k 0 = (List.range k).countP x.toNat.testBit := by
  induction k with
  | zero => rfl
  | succ k ih =>
      rw [BitVec.cpopNatRec_succ, BitVec.cpopNatRec_eq, ih, List.range_succ,
        List.countP_append]
      cases h : x.getLsbD k <;> simp [BitVec.testBit_toNat, h]

theorem gives_popcnt (x : BitVec n) : IntUnary.popcnt.Gives n x.toNat x.cpop.toNat := by
  rw [Gives, BitVec.toNat_cpop, cpopNatRec_eq_countP]

theorem gives_apply (hn : 0 < n) (op : IntUnary) (x : BitVec n) :
    op.Gives n x.toNat (op.apply x).toNat := by
  cases op with
  | clz => exact gives_clz hn x
  | ctz => exact gives_ctz x
  | popcnt => exact gives_popcnt x

end IntUnary

end

/-! ## Values -/

theorem Width.bits_pos (width : Width) : 0 < width.bits := by
  cases width <;> decide

theorem Width.bitCount_int (width : Width) :
    (NumberType.int width).bitCount = width.bits := by
  cases width <;> rfl

theorem Width.toNat_toBitVec (width : Width) (bits : UInt64) :
    (width.toBitVec bits).toNat = bits.toNat % 2 ^ width.bits := by
  cases width with
  | w32 => simp [Width.toBitVec, Width.bits]
  | w64 => simp [Width.toBitVec, Width.bits, Nat.mod_eq_of_lt bits.toNat_lt]

theorem Width.toNat_ofBitVec (width : Width) (x : BitVec width.bits) :
    (width.ofBitVec x).toNat = x.toNat := by
  cases width with
  | w32 => exact UInt32.toNat_toUInt64 _
  | w64 => rfl

theorem Val.number_int (v : Val) (width : Width) :
    v.number (.int width) = (width.toBitVec v.bits).toNat := by
  rw [Val.number, width.bitCount_int, width.toNat_toBitVec]

theorem Val.ofBits_eq_value (type : NumberType) (bits : UInt64) :
    Val.ofBits (.number type) bits = type.value (bits.toNat % 2 ^ type.bitCount) := by
  have hbits : (Val.ofBits (.number type) bits).bits =
      UInt64.ofNat (bits.toNat % 2 ^ type.bitCount) := by
    rw [← Val.toNat_bits_ofBits, UInt64.ofNat_toNat]
  calc
    Val.ofBits (.number type) bits
        = ⟨(Val.ofBits (.number type) bits).type,
          (Val.ofBits (.number type) bits).bits⟩ := rfl
    _ = type.value (bits.toNat % 2 ^ type.bitCount) := by
      rw [Val.type_ofBits, hbits, NumberType.value]

theorem Val.number_value
    {type : NumberType} {n : Nat} (h : n < 2 ^ type.bitCount) :
    (type.value n).number type = n := by
  have hword : n < 2 ^ 64 :=
    h.trans_le (Nat.pow_le_pow_right (by decide) type.bitCount_le)
  rw [Val.number, NumberType.value, UInt64.toNat_ofNat_of_lt' hword, Nat.mod_eq_of_lt h]

theorem Val.ofBits_ofBitVec (width : Width) (x : BitVec width.bits) :
    Val.ofBits (.number (.int width)) (width.ofBitVec x) =
      (NumberType.int width).value x.toNat := by
  rw [Val.ofBits_eq_value, width.toNat_ofBitVec, width.bitCount_int,
    Nat.mod_eq_of_lt x.isLt]

theorem toNat_bool_lt (b : Bool) : b.toNat < 2 ^ NumberType.i32.bitCount := by
  cases b <;> decide

theorem Val.ofBits_wordOfBool (b : Bool) :
    Val.ofBits .i32 (wordOfBool b) = NumberType.i32.value b.toNat := by
  cases b <;> rfl

theorem BinaryOp.eval_of_failure
    {op : BinaryOp} {a b : Val} {cause : ArithmeticFailure}
    (h : op.failure? (a.number op.operand) (b.number op.operand) = some cause) :
    op.eval a b = .error cause := by
  cases op with
  | int width op =>
      simp only [failure?, operand, Val.number_int] at h
      rw [BinaryOp.eval, BinaryOp.apply, IntBinary.apply_of_failure width.bits_pos h]
      rfl
  | _ => cases h

theorem BinaryOp.OnIntegers.eq
    {op : BinaryOp} {operand' result' : NumberType}
    (hop : op.OnIntegers operand' result') :
    operand' = op.operand ∧ result' = op.result := by
  cases hop <;> exact ⟨rfl, rfl⟩

theorem BinaryOp.exists_eval
    {op : BinaryOp} {operand' result' : NumberType} {a b : Val}
    (hop : op.OnIntegers operand' result')
    (h : op.failure? (a.number op.operand) (b.number op.operand) = none) :
    ∃ c < 2 ^ op.result.bitCount,
      op.Gives (a.number op.operand) (b.number op.operand) c ∧
      op.eval a b = .ok (op.result.value c) := by
  cases op with
  | int width op =>
      simp only [failure?, operand, Val.number_int] at h
      obtain ⟨z, hz, hgives⟩ := IntBinary.exists_apply width.bits_pos h
      refine ⟨z.toNat, ?_, ?_, ?_⟩
      · rw [result, width.bitCount_int]
        exact z.isLt
      · simpa only [Gives, operand, Val.number_int] using hgives
      · rw [BinaryOp.eval, BinaryOp.apply, hz]
        exact congrArg Except.ok (Val.ofBits_ofBitVec width z)
  | intCompare width op =>
      have hrelates := op.holds_iff_relates (width.toBitVec a.bits)
        (width.toBitVec b.bits)
      simp only [Gives, operand, Val.number_int, ← hrelates]
      refine ⟨_, toNat_bool_lt _, ?_, congrArg Except.ok (Val.ofBits_wordOfBool _)⟩
      cases op.holds (width.toBitVec a.bits) (width.toBitVec b.bits) <;> simp
  | float | floatCompare => cases hop

theorem SignExtension.lowBits_le (extension : SignExtension) :
    extension.lowBits ≤ extension.width.bits := by
  cases extension <;> decide

theorem SignExtension.read_apply (extension : SignExtension)
    (x : BitVec extension.width.bits) :
    Signedness.signed.read extension.width.bits (extension.apply x).toNat =
      Signedness.signed.read extension.lowBits (x.toNat % 2 ^ extension.lowBits) := by
  rw [SignExtension.apply, Signedness.read_toNat_signExtend extension.lowBits_le,
    BitVec.toNat_setWidth]

namespace UnaryOp

/-- The operator gives the number that it should. -/
def EvalGives (op : UnaryOp) (a : Val) : Prop :=
  ∃ c < 2 ^ op.result.bitCount, op.Gives (a.number op.operand) c ∧
    op.eval a = .ok (op.result.value c)

theorem evalGives_of_eval
    {op : UnaryOp} {a : Val} {width : Width} (x : BitVec width.bits)
    (hresult : op.result = .int width) (hgives : op.Gives (a.number op.operand) x.toNat)
    (heval : op.eval a = .ok (Val.ofBits (.number (.int width)) (width.ofBitVec x))) :
    op.EvalGives a := by
  refine ⟨x.toNat, ?_, hgives, ?_⟩
  · rw [hresult, width.bitCount_int]
    exact x.isLt
  · rw [heval, hresult, Val.ofBits_ofBitVec]

theorem evalGives_wrap (a : Val) : (UnaryOp.convert .wrap).EvalGives a := by
  refine ⟨a.bits.toNat % 2 ^ 32, Nat.mod_lt _ (by decide), ?_, ?_⟩
  · simp [Gives, operand, Conversion.operand, Val.number, NumberType.bitCount]
  · refine congrArg Except.ok ((Val.ofBits_eq_value .i32 _).trans ?_)
    simp [NumberType.bitCount, result, Conversion.result]

theorem evalGives_extend (sign : Signedness) (a : Val) :
    (UnaryOp.convert (.extend sign)).EvalGives a := by
  cases sign with
  | signed =>
      refine @evalGives_of_eval _ a .w64
        ((Width.w32.toBitVec a.bits).signExtend 64) rfl ?_ rfl
      rw [Gives, operand, Conversion.operand, show NumberType.i32 = .int .w32 from rfl,
        Val.number_int]
      exact Signedness.read_toNat_signExtend (n := Width.w32.bits) (by decide) _
  | unsigned =>
      refine ⟨a.bits.toUInt32.toUInt64.toNat, UInt64.toNat_lt _, ?_, ?_⟩
      · simp [Gives, operand, Conversion.operand, Signedness.read, Val.number,
          NumberType.bitCount]
      · refine congrArg Except.ok ((Val.ofBits_eq_value .i64 _).trans ?_)
        exact congrArg NumberType.i64.value (Nat.mod_eq_of_lt (UInt64.toNat_lt _))

theorem evalGives_signExtend (extension : SignExtension) (a : Val) :
    (UnaryOp.signExtend extension).EvalGives a := by
  refine evalGives_of_eval
    (extension.apply (extension.width.toBitVec a.bits)) rfl ?_ rfl
  have hread := extension.read_apply (extension.width.toBitVec a.bits)
  rw [operand, Val.number_int]
  cases extension <;> exact hread

theorem evalGives_int (width : Width) (op : IntUnary) (a : Val) :
    (UnaryOp.int width op).EvalGives a := by
  refine evalGives_of_eval (op.apply (width.toBitVec a.bits)) rfl ?_ rfl
  rw [Gives, operand, Val.number_int]
  exact op.gives_apply width.bits_pos _

theorem evalGives_eqz (width : Width) (a : Val) : (UnaryOp.eqz width).EvalGives a := by
  refine ⟨_, toNat_bool_lt _, ?_, congrArg Except.ok (Val.ofBits_wordOfBool _)⟩
  simp only [Gives, operand, Val.number_int, toNat_eq_zero_iff]
  by_cases hzero : width.toBitVec a.bits = 0
  · rw [if_pos hzero, beq_iff_eq.mpr hzero, Bool.toNat_true]
  · rw [if_neg hzero, beq_eq_false_iff_ne.mpr hzero, Bool.toNat_false]

theorem OnIntegers.evalGives
    {op : UnaryOp} {operand' result' : NumberType}
    (hop : op.OnIntegers operand' result') (a : Val) :
    op.EvalGives a := by
  cases hop with
  | eqz32 | eqz64 => exact evalGives_eqz _ a
  | int32 op | int64 op => exact evalGives_int _ op a
  | wrap => exact evalGives_wrap a
  | extend sign => exact evalGives_extend sign a
  | i32From8 | i32From16 | i64From8 | i64From16 | i64From32 =>
      exact evalGives_signExtend _ a

theorem OnIntegers.eq
    {op : UnaryOp} {operand' result' : NumberType}
    (hop : op.OnIntegers operand' result') :
    operand' = op.operand ∧ result' = op.result := by
  cases hop <;> exact ⟨rfl, rfl⟩

end UnaryOp

/-! ## Quotients, remainders and rotations -/

theorem Signedness.read_modEq (sign : Signedness) (n a : Nat) :
    sign.read n a ≡ a [ZMOD (2 ^ n : Nat)] := by
  cases sign with
  | unsigned => exact Int.ModEq.refl _
  | signed =>
      rw [Signedness.read]
      split
      · exact Int.ModEq.refl _
      · exact Int.sub_emod_right _ _

theorem Signedness.eq_zero_of_read
    {sign : Signedness} {n a : Nat} (ha : a < 2 ^ n)
    (h : sign.read n a = 0) : a = 0 := by
  have hmod : (0 : Int) ≡ a [ZMOD (2 ^ n : Nat)] := h ▸ sign.read_modEq n a
  have hdvd : 2 ^ n ∣ a :=
    Int.natCast_dvd_natCast.mp (Int.modEq_zero_iff_dvd.mp hmod.symm)
  exact Nat.eq_zero_of_dvd_of_lt hdvd ha

namespace IntBinary

variable {sign : Signedness} {n a b c d q r : Nat}

/-- The divisor times the quotient and the remainder make up the dividend. -/
theorem eq_mul_add
    (ha : a < 2 ^ n) (hq : (IntBinary.div sign).Gives n a b q)
    (hr : (IntBinary.rem sign).Gives n a b r) :
    a = (b * q + r) % 2 ^ n := by
  -- The readings satisfy the equation exactly, and each of them is its number up to a
  -- multiple of the modulus.
  have hread : sign.read n b * sign.read n q + sign.read n r = sign.read n a := by
    rw [show sign.read n q = _ from hq, show sign.read n r = _ from hr,
      Int.mul_tdiv_add_tmod]
  have hmod : (a : Int) ≡ (b * q + r : Nat) [ZMOD (2 ^ n : Nat)] :=
    calc
      (a : Int) ≡ sign.read n a [ZMOD (2 ^ n : Nat)] := (sign.read_modEq n a).symm
      _ = sign.read n b * sign.read n q + sign.read n r := hread.symm
      _ ≡ b * q + r [ZMOD (2 ^ n : Nat)] :=
        ((sign.read_modEq n b).mul (sign.read_modEq n q)).add (sign.read_modEq n r)
      _ = (b * q + r : Nat) := by push_cast; rfl
  rw [← Nat.mod_eq_of_lt ha]
  exact Int.natCast_modEq_iff.mp hmod

/-- The remainder has the sign of the dividend. -/
theorem sign_rem
    (hr : (IntBinary.rem sign).Gives n a b r) :
    (0 ≤ sign.read n a → 0 ≤ sign.read n r) ∧
      (sign.read n a ≤ 0 → sign.read n r ≤ 0) := by
  rw [show sign.read n r = _ from hr]
  refine ⟨fun h => Int.tmod_nonneg _ h, fun h => ?_⟩
  have hneg : 0 ≤ (-sign.read n a).tmod (sign.read n b) :=
    Int.tmod_nonneg _ (Int.neg_nonneg_of_nonpos h)
  rw [Int.neg_tmod] at hneg
  exact Int.nonpos_of_neg_nonneg hneg

/-- Nothing remains of a division by minus one. -/
theorem rem_neg_one
    (hr : (IntBinary.rem sign).Gives n a b r) (hbound : r < 2 ^ n)
    (hb : sign.read n b = -1) : r = 0 := by
  refine @Signedness.eq_zero_of_read sign n r hbound ?_
  rw [show sign.read n r = _ from hr, hb, Int.tmod_neg, Int.tmod_one]

theorem eq_of_testBit_eq (ha : a < 2 ^ n) (hd : d < 2 ^ n)
    (h : ∀ i < n, d.testBit i = a.testBit i) : d = a := by
  refine Nat.eq_of_testBit_eq fun i => ?_
  by_cases hi : i < n
  · exact h i hi
  · have hpow : 2 ^ n ≤ 2 ^ i := Nat.pow_le_pow_right (by decide) (Nat.not_lt.mp hi)
    rw [Nat.testBit_lt_two_pow (hd.trans_le hpow),
      Nat.testBit_lt_two_pow (ha.trans_le hpow)]

/-- A rotation to the right undoes one to the left. -/
theorem eq_of_rotl_rotr
    (ha : a < 2 ^ n) (hd : d < 2 ^ n) (hc : IntBinary.rotl.Gives n a b c)
    (h : IntBinary.rotr.Gives n c b d) :
    d = a := by
  refine eq_of_testBit_eq ha hd fun i hi => ?_
  have hback : ((((i + b) % n : Nat) : Int) - b) % n = i := by
    rw [Int.natCast_emod, Int.emod_sub_emod, Int.natCast_add, Int.add_sub_cancel,
      ← Int.natCast_emod, Nat.mod_eq_of_lt hi]
  have hbit := h ((i + b) % n) (Nat.mod_lt _ (Nat.zero_lt_of_lt hi))
  rw [hback, Int.toNat_natCast] at hbit
  rw [hbit, hc i hi]

/-- A rotation to the left undoes one to the right. -/
theorem eq_of_rotr_rotl
    (ha : a < 2 ^ n) (hd : d < 2 ^ n) (hc : IntBinary.rotr.Gives n a b c)
    (h : IntBinary.rotl.Gives n c b d) :
    d = a := by
  refine eq_of_testBit_eq ha hd fun i hi => ?_
  have hn : (n : Int) ≠ 0 := by omega
  have hlt : (((i : Int) - b) % n).toNat < n := by
    have := Int.emod_lt_of_pos ((i : Int) - b) (show (0 : Int) < n by omega)
    omega
  have hback : ((((i : Int) - b) % n).toNat + b) % n = i := by
    refine Int.natCast_inj.mp ?_
    rw [Int.natCast_emod, Int.natCast_add, Int.toNat_of_nonneg (Int.emod_nonneg _ hn),
      Int.emod_add_emod, Int.sub_add_cancel, ← Int.natCast_emod, Nat.mod_eq_of_lt hi]
  have hbit := h (((i : Int) - b) % n).toNat hlt
  rw [hback] at hbit
  rw [hbit, hc i hi]

end IntBinary

/-! ## Execution -/

namespace Exec

variable {α : Type} {module : UInt32} {r : Run} {a b v : Val} {below : Stack}

theorem popTyped_bind_popTyped
    {type : ValueType} (hstack : r.stack = .value b :: .value a :: below)
    (ha : a.type = type) (hb : b.type = type) (f : Val → Val → Exec α) :
    (popTyped type >>= fun b => popTyped type >>= fun a => f a b) r = f a b { r with
      stack := below } :=
  (bind_eq_of_eq_ok (popTyped_eq_ok hstack hb)).trans
    (bind_eq_of_eq_ok (popTyped_eq_ok rfl ha))

theorem transfer_unary_of_ok
    {op : UnaryOp} (hstack : r.stack = .value a :: below)
    (ha : a.type = .number op.operand) (h : op.eval a = .ok v) :
    transfer module (.unary op) r = .ok .next { r with
      stack := .value v :: below } := by
  have hplain : plain module (.unary op) r = .ok () { r with
      stack := .value v :: below } := by
    refine (bind_eq_of_eq_ok (popTyped_eq_ok hstack ha)).trans ?_
    rw [h]
    rfl
  exact bind_eq_of_eq_ok hplain

theorem transfer_binary_of_ok
    {op : BinaryOp} (hstack : r.stack = .value b :: .value a :: below)
    (ha : a.type = .number op.operand) (hb : b.type = .number op.operand)
    (h : op.eval a b = .ok v) :
    transfer module (.binary op) r = .ok .next { r with
      stack := .value v :: below } := by
  have hplain : plain module (.binary op) r = .ok () { r with
      stack := .value v :: below } := by
    refine (popTyped_bind_popTyped hstack ha hb _).trans ?_
    rw [h]
    rfl
  exact bind_eq_of_eq_ok hplain

theorem transfer_binary_of_error
    {op : BinaryOp} {cause : ArithmeticFailure}
    (hstack : r.stack = .value b :: .value a :: below)
    (ha : a.type = .number op.operand) (hb : b.type = .number op.operand)
    (h : op.eval a b = .error cause) :
    transfer module (.binary op) r = .error (.trap (.arithmetic cause)) { r with
      stack := below } := by
  have hplain : plain module (.binary op) r = .error (.trap (.arithmetic cause))
      { r with stack := below } := by
    refine (popTyped_bind_popTyped hstack ha hb _).trans ?_
    rw [h]
    rfl
  exact bind_eq_of_eq_error hplain

end Exec

namespace Engine

/-- Wherever the instruction is executed with the operands on top of the stack, it puts
the value in their place and leaves the run as it is otherwise. -/
def Pushes (instr : Instr) (operands : List Val) (v : Val) : Prop :=
  ∀ (fuel : Nat) (setting : Setting) (module : UInt32) (r r' : Run) (below : Stack),
    r.stack = below.pushAll operands → Dispatches setting instr r r' →
      exec (fuel + 1) setting module instr r =
        .ok .next { r with
          stack := .value v :: below, steps := r'.steps, trace := r'.trace }

/-- Wherever the instruction is executed with the operands on top of the stack, it takes
them and traps. -/
def Fails (instr : Instr) (operands : List Val) (cause : ArithmeticFailure) : Prop :=
  ∀ (fuel : Nat) (setting : Setting) (module : UInt32) (r r' : Run) (below : Stack),
    r.stack = below.pushAll operands → Dispatches setting instr r r' →
      exec (fuel + 1) setting module instr r =
        .error (.trap (.arithmetic cause)) { r with
          stack := below, steps := r'.steps, trace := r'.trace }

/-- There is a remainder of the division.  It has the sign of the dividend, is zero if
the divisor is minus one, and makes up the dividend together with the quotient, unless
that overflows. -/
def Divides (width : Width) (sign : Signedness) (a b : Val) : Prop :=
  ∃ rest < 2 ^ width.bits,
    Pushes (.binary (.int width (.rem sign))) [a, b]
      ((NumberType.int width).value rest) ∧
    (0 ≤ sign.read width.bits (a.number (.int width)) → 0 ≤ sign.read width.bits rest) ∧
    (sign.read width.bits (a.number (.int width)) ≤ 0 → sign.read width.bits rest ≤ 0) ∧
    (sign.read width.bits (b.number (.int width)) = -1 → rest = 0) ∧
    ((IntBinary.div sign).failure? width.bits (a.number (.int width))
        (b.number (.int width)) = none →
      ∃ quotient < 2 ^ width.bits,
        Pushes (.binary (.int width (.div sign))) [a, b]
          ((NumberType.int width).value quotient) ∧
        a.number (.int width) = (b.number (.int width) * quotient + rest) %
          2 ^ width.bits)

/-- What one rotation by the second value does to the first, the other one undoes. -/
def RotatesBack (width : Width) (a b : Val) : Prop :=
  ∃ left right,
    Pushes (.binary (.int width .rotl)) [a, b] ((NumberType.int width).value left) ∧
    Pushes (.binary (.int width .rotr)) [(NumberType.int width).value left, b]
      ((NumberType.int width).value (a.number (.int width))) ∧
    Pushes (.binary (.int width .rotr)) [a, b] ((NumberType.int width).value right) ∧
    Pushes (.binary (.int width .rotl)) [(NumberType.int width).value right, b]
      ((NumberType.int width).value (a.number (.int width)))

variable {a b v : Val}

theorem pushes_unary
    {op : UnaryOp} (ha : a.type = .number op.operand) (h : op.eval a = .ok v) :
    Pushes (.unary op) [a] v := by
  intro fuel setting module r r' below hstack hdispatches
  obtain ⟨steps, trace, rfl⟩ := hdispatches.eq
  exact hdispatches.exec_of_next (Exec.transfer_unary_of_ok hstack ha h) fuel

theorem pushes_binary
    {op : BinaryOp} (ha : a.type = .number op.operand)
    (hb : b.type = .number op.operand) (h : op.eval a b = .ok v) :
    Pushes (.binary op) [a, b] v := by
  intro fuel setting module r r' below hstack hdispatches
  obtain ⟨steps, trace, rfl⟩ := hdispatches.eq
  exact hdispatches.exec_of_next (Exec.transfer_binary_of_ok hstack ha hb h) fuel

theorem fails_binary
    {op : BinaryOp} {cause : ArithmeticFailure} (ha : a.type = .number op.operand)
    (hb : b.type = .number op.operand) (h : op.eval a b = .error cause) :
    Fails (.binary op) [a, b] cause := by
  intro fuel setting module r r' below hstack hdispatches
  obtain ⟨steps, trace, rfl⟩ := hdispatches.eq
  exact hdispatches.exec_of_error (Exec.transfer_binary_of_error hstack ha hb h) fuel

theorem exists_pushes_binary
    {op : BinaryOp} {operand result : NumberType} (hop : op.OnIntegers operand result)
    (ha : a.type = .number operand) (hb : b.type = .number operand)
    (h : op.failure? (a.number operand) (b.number operand) = none) :
    ∃ c < 2 ^ result.bitCount, op.Gives (a.number operand) (b.number operand) c ∧
      Pushes (.binary op) [a, b] (result.value c) := by
  obtain ⟨rfl, rfl⟩ := hop.eq
  obtain ⟨c, hbound, hgives, heval⟩ := BinaryOp.exists_eval hop h
  exact ⟨c, hbound, hgives, pushes_binary ha hb heval⟩

section Int

variable {width : Width}

theorem exists_pushes_int
    (op : IntBinary) (ha : a.type = .number (.int width))
    (hb : b.type = .number (.int width))
    (h : op.failure? width.bits (a.number (.int width)) (b.number (.int width)) =
      none) :
    ∃ c < 2 ^ width.bits, op.Gives width.bits (a.number (.int width))
        (b.number (.int width)) c ∧
      Pushes (.binary (.int width op)) [a, b] ((NumberType.int width).value c) := by
  have hop : (BinaryOp.int width op).OnIntegers (.int width) (.int width) := by
    cases width <;> constructor
  obtain ⟨c, hbound, hgives, hpushes⟩ := exists_pushes_binary hop ha hb h
  exact ⟨c, width.bitCount_int ▸ hbound, hgives, hpushes⟩

theorem number_lt (v : Val) (width : Width) :
    v.number (.int width) < 2 ^ width.bits := by
  rw [Val.number_int]
  exact BitVec.isLt _

theorem divides_of_ne_zero
    (sign : Signedness) (ha : a.type = .number (.int width))
    (hb : b.type = .number (.int width)) (hzero : b.number (.int width) ≠ 0) :
    Divides width sign a b := by
  obtain ⟨rest, hbound, hrest, hpushes⟩ :=
    exists_pushes_int (.rem sign) ha hb (if_neg hzero)
  obtain ⟨hnonneg, hnonpos⟩ := IntBinary.sign_rem hrest
  refine ⟨rest, hbound, hpushes, hnonneg, hnonpos, IntBinary.rem_neg_one hrest hbound,
    fun h => ?_⟩
  obtain ⟨quotient, hquotient, hdiv, hpushes⟩ := exists_pushes_int (.div sign) ha hb h
  exact ⟨quotient, hquotient, hpushes,
    IntBinary.eq_mul_add (number_lt a width) hdiv hrest⟩

theorem rotatesBack
    (ha : a.type = .number (.int width)) (hb : b.type = .number (.int width)) :
    RotatesBack width a b := by
  have hnumber : ∀ {c}, c < 2 ^ width.bits →
      ((NumberType.int width).value c).number (.int width) = c :=
    fun h => Val.number_value (width.bitCount_int ▸ h)
  obtain ⟨left, hleft, hrotl, hpushl⟩ := exists_pushes_int .rotl ha hb rfl
  obtain ⟨a', ha', hback, hpushl'⟩ :=
    exists_pushes_int .rotr (a := (NumberType.int width).value left) rfl hb rfl
  obtain ⟨right, hright, hrotr, hpushr⟩ := exists_pushes_int .rotr ha hb rfl
  obtain ⟨a'', ha'', hforth, hpushr'⟩ :=
    exists_pushes_int .rotl (a := (NumberType.int width).value right) rfl hb rfl
  rw [hnumber hleft] at hback
  rw [hnumber hright] at hforth
  obtain rfl := IntBinary.eq_of_rotl_rotr (number_lt a width) ha' hrotl hback
  obtain rfl := IntBinary.eq_of_rotr_rotl (number_lt a width) ha'' hrotr hforth
  exact ⟨left, right, hpushl, hpushl', hpushr, hpushr'⟩

end Int

/-- On operands of its type an integer instruction traps exactly for the cause that its
operator has there, and gives the number that its operator stands for if there is
none. -/
theorem integer_instructions_exact :
    (∀ (op : BinaryOp) (operand result : NumberType) (a b : Val),
      op.OnIntegers operand result → a.type = .number operand →
      b.type = .number operand →
      (∀ cause, op.failure? (a.number operand) (b.number operand) = some cause →
        Fails (.binary op) [a, b] cause) ∧
      (op.failure? (a.number operand) (b.number operand) = none →
        ∃ c < 2 ^ result.bitCount, op.Gives (a.number operand) (b.number operand) c ∧
          Pushes (.binary op) [a, b] (result.value c))) ∧
    (∀ (op : UnaryOp) (operand result : NumberType) (a : Val),
      op.OnIntegers operand result → a.type = .number operand →
      ∃ c < 2 ^ result.bitCount, op.Gives (a.number operand) c ∧
        Pushes (.unary op) [a] (result.value c)) ∧
    (∀ (width : Width) (a b : Val), a.type = .number (.int width) →
      b.type = .number (.int width) →
      (∀ sign, b.number (.int width) ≠ 0 → Divides width sign a b) ∧
        RotatesBack width a b) := by
  refine ⟨fun op operand result a b hop ha hb =>
      ⟨fun cause h => ?_, exists_pushes_binary hop ha hb⟩,
    fun op operand result a hop ha => ?_,
    fun width a b ha hb => ⟨fun sign => divides_of_ne_zero sign ha hb,
      rotatesBack ha hb⟩⟩
  · obtain ⟨rfl, -⟩ := hop.eq
    exact fails_binary ha hb (BinaryOp.eval_of_failure h)
  · obtain ⟨rfl, rfl⟩ := hop.eq
    obtain ⟨c, hbound, hgives, heval⟩ := hop.evalGives a
    exact ⟨c, hbound, hgives, pushes_unary ha heval⟩

/-- The least number has no quotient by minus one, but a remainder, and the lowest byte
of a number is extended by its own sign. -/
theorem least_by_minus_one :
    let setting : Setting := { config := {}, context := .background }
    let r : Run :=
      { session := .scratch [], stack := [.value ⟨.i32, 0xffffffff⟩,
        .value ⟨.i32, 0x80000000⟩] }
    let r' : Run := { session := .scratch [], stack := [.value ⟨.i64, 0x12345680⟩] }
    exec 1 setting 0 (.binary (.int .w32 (.div .signed))) r =
        .error (.trap (.arithmetic .overflow)) { r with stack := [] } ∧
      exec 1 setting 0 (.binary (.int .w32 (.rem .signed))) r = .ok .next { r with
        stack := [.value ⟨.i32, 0⟩] } ∧
      exec 1 setting 0 (.unary (.signExtend .i64From8)) r' =
        .ok .next { r' with stack := [.value ⟨.i64, 0xffffffffffffff80⟩] } := by
  intro setting r r'
  have hdispatches (op : IntBinary) : Dispatches setting (.binary (.int .w32 op)) r r :=
    rfl
  have hdispatches' : Dispatches setting (.unary (.signExtend .i64From8)) r' r' := rfl
  obtain ⟨hbinary, hunary, hdivides⟩ := integer_instructions_exact
  have hfails := (hbinary _ _ _ ⟨.i32, 0x80000000⟩ ⟨.i32, 0xffffffff⟩
    (.int32 (.div .signed)) rfl rfl).1 .overflow (by decide)
  obtain ⟨rest, -, hpushes, -, -, hzero, -⟩ :=
    (hdivides .w32 ⟨.i32, 0x80000000⟩ ⟨.i32, 0xffffffff⟩ rfl rfl).1 .signed (by decide)
  obtain rfl := hzero (by decide)
  obtain ⟨c, hbound, hgives, hextends⟩ := hunary _ _ _ ⟨.i64, 0x12345680⟩ .i64From8 rfl
  obtain rfl : c = 0xffffffffffffff80 := by
    have hread : Signedness.signed.read 64 c = Signedness.signed.read 8 128 := hgives
    have hbound : c < 2 ^ 64 := hbound
    simp only [Signedness.read] at hread
    split at hread <;> omega
  exact ⟨hfails 0 _ 0 r r [] rfl (hdispatches _),
    hpushes 0 _ 0 r r [] rfl (hdispatches _), hextends 0 _ 0 r' r' [] rfl hdispatches'⟩

end Engine

end WebAssembly
