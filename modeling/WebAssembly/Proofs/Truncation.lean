import WebAssembly.Proofs.BinaryWords
import WebAssembly.Proofs.IntegerInstructions

/-!
# Truncation of floating-point numbers

A truncation rounds its operand toward zero in the wide format and compares the result
with bounds in that format.  Of these the greatest integers of 64 bits are rounded up.
The comparisons still single out the integers of the target.
-/

namespace WebAssembly

namespace Signedness

/-- The least integer of so many bits. -/
def least (sign : Signedness) (bits : Nat) : Int :=
  match sign with
  | .signed => -2 ^ (bits - 1)
  | .unsigned => 0

/-- The greatest integer of so many bits. -/
def greatest (sign : Signedness) (bits : Nat) : Int :=
  match sign with
  | .signed => 2 ^ (bits - 1) - 1
  | .unsigned => 2 ^ bits - 1

/-- The integer is one of those that so many bits can stand for. -/
def Fits (sign : Signedness) (bits : Nat) (n : Int) : Prop :=
  sign.least bits ≤ n ∧ n ≤ sign.greatest bits

instance (sign : Signedness) (bits : Nat) (n : Int) : Decidable (sign.Fits bits n) :=
  inferInstanceAs (Decidable (_ ∧ _))

theorem fits_zero (sign : Signedness) (target : Width) : sign.Fits target.bits 0 := by
  cases sign <;> cases target <;> decide

/-- The bits of an integer that fits stand for it. -/
theorem read_ofInt
    {sign : Signedness} {bits : Nat} {n : Int} (hbits : 0 < bits)
    (h : sign.Fits bits n) :
    sign.read bits (BitVec.ofInt bits n).toNat = n := by
  obtain ⟨hleast, hgreatest⟩ := h
  cases sign with
  | signed =>
    simp only [least, greatest] at hleast hgreatest
    rw [read_toNat_signed]
    exact BitVec.toInt_ofInt_eq_self hbits hleast (by omega)
  | unsigned =>
    simp only [least, greatest] at hleast hgreatest
    have hpow : ((2 ^ bits : Nat) : Int) = 2 ^ bits := Nat.cast_pow 2 bits
    rw [read, BitVec.toNat_ofInt, Int.emod_eq_of_lt hleast (by omega),
      Int.toNat_of_nonneg hleast]

/-! ## The bounds -/

open Binary

variable (sign : Signedness) (target : Width)

theorem number_leastWord : (Binary.read .w64 (sign.leastWord target)).number = some
    (sign.least target.bits : ℚ) := by
  cases sign with
  | signed =>
    cases target with
    | w32 =>
      refine (number_encode (by decide) (by decide) (by decide) true).trans
        (congrArg some ?_)
      norm_num [WebAssembly.signed, least, Width.bits]
    | w64 =>
      refine (number_encode (by decide) (by decide) (by decide) true).trans
        (congrArg some ?_)
      norm_num [WebAssembly.signed, least, Width.bits]
  | unsigned =>
    refine (number_encode (by decide) (by decide) (by decide) false).trans
      (congrArg some ?_)
    norm_num [WebAssembly.signed, least]

/-- The greatest integers of 32 bits have their own words. -/
theorem number_greatestWord_w32 :
    (Binary.read .w64 (sign.greatestWord .w32)).number = some
      (sign.greatest Width.w32.bits : ℚ) := by
  cases sign <;>
  · refine (number_encode (by decide) (by decide) (by decide) false).trans
      (congrArg some ?_)
    norm_num [WebAssembly.signed, greatest, Width.bits]

/-- The greatest integers of 64 bits have the word of their successor. -/
theorem number_greatestWord_w64 :
    (Binary.read .w64 (sign.greatestWord .w64)).number = some
      (sign.greatest Width.w64.bits + 1 : ℚ) := by
  cases sign <;>
  · refine (number_encode (by decide) (by decide) (by decide) false).trans
      (congrArg some ?_)
    norm_num [WebAssembly.signed, greatest, Width.bits]

/-! ## The comparisons -/

theorem ne_nan_of_number
    {w : Width} {a : Nat} {q : ℚ} (h : (Binary.read w a).number = some q) :
    Binary.read w a ≠ .nan := by
  intro hnan
  rw [hnan] at h
  cases h

variable {sign target} {v : Nat} {n : Int}

theorem below_iff
    (hnan : Binary.read .w64 v ≠ .nan) (hlevel : level .w64 v = n) :
    Binary.lt .w64 v (sign.leastWord target) = true ↔ n < sign.least target.bits := by
  have hleast := sign.number_leastWord target
  rw [lt_iff, level_of_number hleast, hlevel, Int.cast_lt]
  exact ⟨fun h => h.2.2, fun h => ⟨hnan, ne_nan_of_number hleast, h⟩⟩

/-- An integer exceeds a bound that was rounded up exactly when it exceeds the bound
itself. -/
theorem exceeds_iff
    (hnan : Binary.read .w64 v ≠ .nan) (hlevel : level .w64 v = n) :
    sign.exceeds target v = true ↔ sign.greatest target.bits < n := by
  cases target with
  | w32 =>
    have hgreatest := sign.number_greatestWord_w32
    rw [exceeds, lt_iff, level_of_number hgreatest, hlevel, Int.cast_lt]
    exact ⟨fun h => h.2.2, fun h => ⟨ne_nan_of_number hgreatest, hnan, h⟩⟩
  | w64 =>
    have hgreatest := sign.number_greatestWord_w64
    have hsucc : (sign.greatest Width.w64.bits + 1 : ℚ) ≤ n ↔
        sign.greatest Width.w64.bits < n := by
      rw [← Int.cast_one, ← Int.cast_add, Int.cast_le, Int.add_one_le_iff]
    rw [exceeds, le_iff, level_of_number hgreatest, hlevel, hsucc]
    exact ⟨fun h => h.2.2, fun h => ⟨ne_nan_of_number hgreatest, hnan, h⟩⟩

/-- The comparisons reject what does not fit. -/
theorem rejects_iff
    (hnan : Binary.read .w64 v ≠ .nan) (hlevel : level .w64 v = n) :
    (Binary.lt .w64 v (sign.leastWord target) || sign.exceeds target v) = true ↔
      ¬sign.Fits target.bits n := by
  rw [Bool.or_eq_true, below_iff hnan hlevel, exceeds_iff hnan hlevel, Fits]
  omega

/-- An infinity is further away than every integer of a machine word. -/
theorem not_fits_infinity (sign : Signedness) (target : Width) (negative : Bool) :
    ¬sign.Fits target.bits
      (WebAssembly.signed negative (2 ^ (Width.w64.bias + 1))) := by
  have hfar : (2 : Int) ^ 64 < 2 ^ (Width.w64.bias + 1) :=
    pow_lt_pow_right₀ one_lt_two (by decide)
  generalize (2 : Int) ^ (Width.w64.bias + 1) = far at hfar ⊢
  cases sign <;> cases target <;> cases negative <;>
    simp only [Fits, least, greatest, Width.bits, WebAssembly.signed, if_true,
      Bool.false_eq_true, if_false] <;> omega

end Signedness

/-! ## The operator -/

namespace Conversion

open Binary

variable (target : Width) {source : Width} (sign : Signedness) {a : Nat}

theorem truncateWord_of_nan
    (h : read source a = .nan) :
    truncateWord target source sign a = .error .invalidConversion := by
  have hnan : read .w64 (Rounding.towardZero.apply .w64 (widen source a)) = .nan := by
    rw [Rounding.apply, read_widen_nan h]
    exact read_quiet (read_widen_nan h)
  exact if_pos (decide_eq_true hnan)

theorem truncateWord_of_infinite
    {negative : Bool} (h : read source a = .infinite negative) :
    truncateWord target source sign a = .error .overflow := by
  have hwide := read_widen_infinite h
  have hround : Rounding.towardZero.apply .w64 (widen source a) = widen source a := by
    rw [Rounding.apply, hwide]
  have hnan : read .w64 (widen source a) ≠ .nan := by
    rw [hwide]
    exact Reading.noConfusion
  have hlevel : level .w64 (widen source a) =
      (signed negative (2 ^ (Width.w64.bias + 1)) : Int) := by
    rw [level_of_infinite hwide]
    cases negative <;> simp [signed]
  have hrejects := (Signedness.rejects_iff hnan hlevel).mpr
    (sign.not_fits_infinity target negative)
  rw [truncateWord, hround, isNaN, decide_eq_false hnan]
  exact if_pos hrejects

/-- A number is cut to the bits of its integer part if that fits. -/
theorem truncateWord_of_number
    {q : ℚ} (h : (read source a).number = some q) :
    truncateWord target source sign a =
      if sign.Fits target.bits (wholePart q) then
        .ok (BitVec.ofInt target.bits (wholePart q))
      else .error .overflow := by
  have hround := number_towardZero (number_widen h)
  have hnan := Signedness.ne_nan_of_number hround
  have hrejects := @Signedness.rejects_iff sign target _ _ hnan (level_of_number hround)
  simp only [truncateWord]
  rw [isNaN, decide_eq_false hnan, if_neg Bool.false_ne_true,
    toInteger_of_number hround, wholePart_intCast]
  by_cases hfits : sign.Fits target.bits (wholePart q)
  · rw [if_pos hfits, if_neg fun h => hrejects.mp h hfits]
  · rw [if_neg hfits, if_pos (hrejects.mpr hfits)]

theorem toNat_eq_number (source : Width) (v : Val) :
    source.toNat v.bits = v.number (.float source) := by
  have hcount : (NumberType.float source).bitCount = source.bits := by
    cases source <;> rfl
  rw [Width.toNat, source.toNat_toBitVec, Val.number, hcount]

variable {target sign} {v : Val}

theorem eval_truncate_of_error
    {cause : ArithmeticFailure}
    (h : truncateWord target source sign (v.number (.float source)) = .error cause) :
    (UnaryOp.convert (.truncate target source sign)).eval v = .error cause := by
  rw [UnaryOp.eval, UnaryOp.apply, Conversion.apply, toNat_eq_number, h]
  rfl

theorem eval_truncate_of_ok
    {x : BitVec target.bits}
    (h : truncateWord target source sign (v.number (.float source)) = .ok x) :
    (UnaryOp.convert (.truncate target source sign)).eval v =
      .ok ((NumberType.int target).value x.toNat) := by
  rw [UnaryOp.eval, UnaryOp.apply, Conversion.apply, toNat_eq_number, h]
  exact congrArg Except.ok (Val.ofBits_ofBitVec target x)

end Conversion

/-! ## The instruction -/

theorem Exec.transfer_unary_of_error
    {module : UInt32} {r : Run} {a : Val} {below : Stack} {op : UnaryOp}
    {cause : ArithmeticFailure} (hstack : r.stack = .value a :: below)
    (ha : a.type = .number op.operand) (h : op.eval a = .error cause) :
    transfer module (.unary op) r = .error (.trap (.arithmetic cause)) { r with
      stack := below } := by
  have hplain : plain module (.unary op) r = .error (.trap (.arithmetic cause)) { r with
      stack := below } := by
    refine (bind_eq_of_eq_ok (popTyped_eq_ok hstack ha)).trans ?_
    rw [h]
    rfl
  exact bind_eq_of_eq_error hplain

namespace Engine

open Binary (Reading)

variable {a : Val} {op : UnaryOp}

theorem fails_unary
    {cause : ArithmeticFailure} (ha : a.type = .number op.operand)
    (h : op.eval a = .error cause) :
    Fails (.unary op) [a] cause := by
  intro fuel setting module r r' below hstack hdispatches
  obtain ⟨steps, trace, rfl⟩ := hdispatches.eq
  exact hdispatches.exec_of_error (Exec.transfer_unary_of_error hstack ha h) fuel

/-- An instruction that fails does so because its operator fails. -/
theorem fails_unary_iff
    {cause : ArithmeticFailure} (ha : a.type = .number op.operand) :
    Fails (.unary op) [a] cause ↔ op.eval a = .error cause := by
  refine ⟨fun hfails => ?_, fails_unary ha⟩
  -- One run tells the outcomes apart.
  let r : Run := { session := .scratch [], stack := [.value a] }
  have hdispatches : Dispatches { config := {}, context := .background }
    (.unary op) r r := rfl
  have hfailed := hfails 0 _ 0 r r [] rfl hdispatches
  cases h : op.eval a with
  | ok v =>
    rw [pushes_unary ha h 0 _ 0 r r [] rfl hdispatches] at hfailed
    cases hfailed
  | error cause' =>
    rw [fails_unary ha h 0 _ 0 r r [] rfl hdispatches] at hfailed
    cases hfailed
    rfl

abbrev truncation (target source : Width) (sign : Signedness) : Instr :=
  .unary (.convert (.truncate target source sign))

section

variable {target source : Width} {sign : Signedness} (ha : a.type =
  .number (.float source))

include ha

theorem fails_of_nan
    (h : Binary.read source (a.number (.float source)) = .nan) :
    Fails (truncation target source sign) [a] .invalidConversion :=
  fails_unary ha (Conversion.eval_truncate_of_error
    (Conversion.truncateWord_of_nan target sign h))

theorem fails_of_infinite
    {negative : Bool} (h : Binary.read source (a.number (.float source)) =
      .infinite negative) :
    Fails (truncation target source sign) [a] .overflow :=
  fails_unary ha (Conversion.eval_truncate_of_error
    (Conversion.truncateWord_of_infinite target sign h))

theorem fails_of_not_fits
    {q : ℚ} (h : (Binary.read source (a.number (.float source))).number = some q)
    (hfits : ¬sign.Fits target.bits (wholePart q)) :
    Fails (truncation target source sign) [a] .overflow := by
  have hword := Conversion.truncateWord_of_number target sign h
  rw [if_neg hfits] at hword
  exact fails_unary ha (Conversion.eval_truncate_of_error hword)

theorem exists_pushes_of_fits
    {q : ℚ} (h : (Binary.read source (a.number (.float source))).number = some q)
    (hfits : sign.Fits target.bits (wholePart q)) :
    ∃ c < 2 ^ target.bits, sign.read target.bits c = wholePart q ∧
      Pushes (truncation target source sign) [a] ((NumberType.int target).value c) := by
  have hword := Conversion.truncateWord_of_number target sign h
  rw [if_pos hfits] at hword
  refine ⟨_, BitVec.isLt _, Signedness.read_ofInt target.bits_pos hfits, ?_⟩
  exact pushes_unary ha (Conversion.eval_truncate_of_ok hword)

/-- A truncation that fails for lack of an integer was given a NaN. -/
theorem nan_of_fails
    (h : Fails (truncation target source sign) [a] .invalidConversion) :
    Binary.read source (a.number (.float source)) = .nan := by
  have heval := (fails_unary_iff ha).mp h
  cases hread : Binary.read source (a.number (.float source)) with
  | nan => rfl
  | infinite negative =>
    rw [(fails_unary_iff ha).mp (fails_of_infinite ha hread)] at heval
    cases heval
  | finite negative mantissa exponent =>
    have hword := Conversion.truncateWord_of_number target sign
      (congrArg Reading.number hread)
    split at hword
    · rw [Conversion.eval_truncate_of_ok hword] at heval
      cases heval
    · rw [Conversion.eval_truncate_of_error hword] at heval
      cases heval

/-- A truncation that overflows was given no NaN and nothing that fits. -/
theorem not_fits_of_fails
    (h : Fails (truncation target source sign) [a] .overflow) :
    Binary.read source (a.number (.float source)) ≠ .nan ∧
      ∀ q, (Binary.read source (a.number (.float source))).number = some q →
        ¬sign.Fits target.bits (wholePart q) := by
  have heval := (fails_unary_iff ha).mp h
  refine ⟨fun hnan => ?_, fun q hq hfits => ?_⟩
  · rw [(fails_unary_iff ha).mp (fails_of_nan ha hnan)] at heval
    cases heval
  · have hword := Conversion.truncateWord_of_number target sign hq
    rw [if_pos hfits] at hword
    rw [Conversion.eval_truncate_of_ok hword] at heval
    cases heval

end

/-- A truncation of a NaN has no integer, and one of an infinity or of a number whose
whole part does not fit overflows.  Every other truncation gives the whole part. -/
theorem truncation_exact
    (target source : Width) (sign : Signedness) (a : Val)
    (ha : a.type = .number (.float source)) :
    let instr := truncation target source sign
    let word := a.number (.float source)
    let q := Binary.value source word
    (Fails instr [a] .invalidConversion ↔ Binary.IsSpecial source word ∧
      Binary.fraction source word ≠ 0) ∧
    (Fails instr [a] .overflow ↔
      (Binary.IsSpecial source word ∧ Binary.fraction source word = 0) ∨
        (¬Binary.IsSpecial source word ∧ ¬sign.Fits target.bits (wholePart q))) ∧
    (¬Binary.IsSpecial source word → sign.Fits target.bits (wholePart q) →
      ∃ c < 2 ^ target.bits, sign.read target.bits c = wholePart q ∧
        Pushes instr [a] ((NumberType.int target).value c)) ∧
    (¬Binary.IsSpecial source word → -1 < q → q < 0 →
      Pushes instr [a] ((NumberType.int target).value 0)) ∧
    (¬Binary.IsSpecial source word → target = .w64 → sign = .signed → q = 2 ^ 63 →
      Fails instr [a] .overflow) ∧
    (¬Binary.IsSpecial source word → target = .w64 → sign = .unsigned → q = 2 ^ 64 →
      Fails instr [a] .overflow) := by
  intro instr word q
  have hnumber (h : ¬Binary.IsSpecial source word) :
      (Binary.read source word).number = some q :=
    Binary.number_of_not_special h
  have hpow (n : Nat) : wholePart (2 ^ n) = 2 ^ n := by
    exact_mod_cast Binary.wholePart_intCast (2 ^ n)
  refine ⟨?_, ?_, fun h => exists_pushes_of_fits ha (hnumber h),
    fun h hlow hhigh => ?_, ?_, ?_⟩
  · rw [← Binary.read_eq_nan_iff]
    exact ⟨nan_of_fails ha, fails_of_nan ha⟩
  · constructor
    · intro hfails
      obtain ⟨hnan, hfits⟩ := not_fits_of_fails ha hfails
      by_cases hspecial : Binary.IsSpecial source word
      · refine .inl ⟨hspecial, ?_⟩
        by_contra hfraction
        exact hnan (Binary.read_eq_nan_iff.mpr ⟨hspecial, hfraction⟩)
      · exact .inr ⟨hspecial, hfits q (hnumber hspecial)⟩
    · rintro (hinfinite | ⟨hspecial, hfits⟩)
      · obtain ⟨negative, hread⟩ := Binary.exists_infinite_iff.mpr hinfinite
        exact fails_of_infinite ha hread
      · exact fails_of_not_fits ha (hnumber hspecial) hfits
  · have hzero := Binary.wholePart_eq_zero hlow hhigh
    obtain ⟨c, hc, hread, hpushes⟩ :=
      exists_pushes_of_fits ha (hnumber h) (hzero ▸ Signedness.fits_zero sign target)
    rw [hzero] at hread
    exact Signedness.eq_zero_of_read hc hread ▸ hpushes
  · rintro h rfl rfl hq
    refine fails_of_not_fits ha (hnumber h) ?_
    rw [hq, hpow]
    decide
  · rintro h rfl rfl hq
    refine fails_of_not_fits ha (hnumber h) ?_
    rw [hq, hpow]
    decide

/-- The number that the greatest integer is rounded to does not fit, and the number next
to minus one gives zero. -/
theorem truncation_next_to_bounds :
    let setting : Setting := { config := {}, context := .background }
    let r (bits : UInt64) : Run :=
      { session := .scratch [], stack := [.value ⟨.f64, bits⟩] }
    exec 1 setting 0 (truncation .w64 .w64 .signed) (r 0x43e0000000000000) =
        .error (.trap (.arithmetic .overflow)) { r 0 with stack := [] } ∧
      exec 1 setting 0 (truncation .w32 .w64 .unsigned) (r 0xbfefffffffffffff) =
        .ok .next { r 0 with stack := [.value ⟨.i32, 0⟩] } := by
  intro setting r
  have hdispatches (target : Width) (sign : Signedness) (bits : UInt64) :
      Dispatches setting (truncation target .w64 sign) (r bits) (r bits) := rfl
  obtain ⟨-, -, -, -, hsigned, -⟩ :=
    truncation_exact .w64 .w64 .signed ⟨.f64, 0x43e0000000000000⟩ rfl
  obtain ⟨-, -, -, hzero, -⟩ := truncation_exact .w32 .w64 .unsigned ⟨.f64,
      0xbfefffffffffffff⟩ rfl
  have hpower : Binary.value .w64 0x43e0000000000000 = 2 ^ 63 := by
    rw [Binary.value, show Binary.exponentField .w64 0x43e0000000000000 =
        1086 by decide,
      show Binary.fraction .w64 0x43e0000000000000 = 0 by decide]
    norm_num [signed, Width.bias,
      show Binary.isNegative .w64 0x43e0000000000000 = false by decide]
  have hnext : Binary.value .w64 0xbfefffffffffffff = -(1 - 1 / 2 ^ 53) := by
    rw [Binary.value, show Binary.exponentField .w64 0xbfefffffffffffff =
        1022 by decide,
      show Binary.fraction .w64 0xbfefffffffffffff = 2 ^ 52 - 1 by decide]
    norm_num [signed, Width.bias, Width.fractionBits,
      show Binary.isNegative .w64 0xbfefffffffffffff = true by decide]
  have hfails := hsigned (by unfold Binary.IsSpecial; decide) rfl rfl hpower
  have hpushes := hzero (by unfold Binary.IsSpecial; decide) (hnext ▸ by norm_num)
    (hnext ▸ by norm_num)
  have hfailed := hfails 0 setting 0 _ _ [] rfl (hdispatches _ _ _)
  have hpushed := hpushes 0 setting 0 _ _ [] rfl (hdispatches _ _ _)
  exact ⟨hfailed, hpushed⟩

end Engine
end WebAssembly
