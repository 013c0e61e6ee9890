import Mathlib.Data.Rat.Floor
import Mathlib.Tactic.FieldSimp
import Mathlib.Tactic.Ring
import WebAssembly.Binary.Arithmetic
import WebAssembly.Binary.Order
import WebAssembly.Binary.Rounding

/-!
# The numbers of floating-point words

Every finite word stands for an integer multiple of the smallest positive number of its
width.  So the order of words is an order of integers, infinities included, and what is
encoded, widened or rounded toward zero can be followed without an error.
-/

namespace WebAssembly

/-- A number without its fraction. -/
def wholePart (q : ℚ) : Int :=
  if q < 0 then ⌈q⌉ else ⌊q⌋

def signed {α : Type} [Neg α] (negative : Bool) (a : α) : α :=
  if negative then -a else a

def Binary.Reading.number : Binary.Reading → Option ℚ
  | .finite negative mantissa exponent =>
    some (signed negative (mantissa * 2 ^ exponent))
  | _ => none

/-- All bits of the exponent field are set, as in the words that stand for no number. -/
def Binary.IsSpecial (w : Width) (a : Nat) : Prop :=
  exponentField w a = 2 ^ w.exponentBits - 1

/-- The number of a word by the formula of the interchange formats.  The fraction is
read after the binary point, with a one before it unless the exponent field is zero. -/
def Binary.value (w : Width) (a : Nat) : ℚ :=
  let significand : ℚ := fraction w a / 2 ^ w.fractionBits
  signed (isNegative w a)
    (if exponentField w a = 0 then significand * 2 ^ (1 - w.bias : Int)
    else (1 + significand) * 2 ^ (exponentField w a - w.bias : Int))

namespace Width

variable (w : Width)

theorem two_pow_bits_sub_one :
    Nat.pow 2 (w.bits - 1) = 2 ^ w.fractionBits * 2 ^ w.exponentBits := by
  cases w <;> rfl

theorem minExponent_eq : w.minExponent = 1 - w.bias - w.fractionBits := by
  cases w <;> rfl

theorem two_pow_exponentBits : 2 ^ w.exponentBits = 2 * (w.bias + 1) := by
  cases w <;> rfl

theorem fractionBits_lt_bias : w.fractionBits < w.bias := by
  cases w <;> decide

end Width

namespace Binary

variable {w : Width} {a b : Nat} {negative : Bool} {mantissa : Nat} {exponent : Int}

/-! ## Fields -/

theorem fraction_lt (w : Width) (a : Nat) : fraction w a < 2 ^ w.fractionBits :=
  Nat.mod_lt _ (Nat.two_pow_pos _)

theorem exponentField_lt (w : Width) (a : Nat) :
    exponentField w a < 2 ^ w.exponentBits :=
  Nat.mod_lt _ (Nat.two_pow_pos _)

theorem magnitude_eq (w : Width) (a : Nat) :
    magnitude w a = 2 ^ w.fractionBits * exponentField w a + fraction w a := by
  rw [magnitude, w.two_pow_bits_sub_one, Nat.mod_mul, Nat.add_comm]
  rfl

theorem div_mod_of_lt {n q r : Nat} (hr : r < n) :
    (n * q + r) / n = q ∧ (n * q + r) % n = r := by
  constructor
  · rw [Nat.mul_add_div (Nat.zero_lt_of_lt hr), Nat.div_eq_of_lt hr, Nat.add_zero]
  · rw [Nat.mul_add_mod, Nat.mod_eq_of_lt hr]

/-- A word that is put together from its fields has these fields. -/
theorem fields_eq
    {field rest : Nat} (hfield : field < 2 ^ w.exponentBits)
    (hrest : rest < 2 ^ w.fractionBits) (negative : Bool) {word : Nat}
    (hword : word = signBit w negative + field * 2 ^ w.fractionBits + rest) :
    exponentField w word = field ∧ fraction w word = rest ∧
      isNegative w word = negative := by
  have hsign : signBit w negative = 2 ^ w.fractionBits *
      (2 ^ w.exponentBits * negative.toNat) := by
    rw [signBit, w.two_pow_bits_sub_one, ← Nat.mul_assoc]
    cases negative <;> simp
  have hsplit : word = 2 ^ w.fractionBits * (2 ^ w.exponentBits * negative.toNat +
      field) + rest := by
    rw [hword, hsign, Nat.mul_add, Nat.mul_comm field]
  obtain ⟨hquotient, hremainder⟩ :=
    div_mod_of_lt (q := 2 ^ w.exponentBits * negative.toNat + field) hrest
  obtain ⟨htop, hlow⟩ := div_mod_of_lt (q := negative.toNat) hfield
  rw [← hsplit] at hquotient hremainder
  refine ⟨?_, hremainder, ?_⟩
  · exact (congrArg (· % 2 ^ w.exponentBits) hquotient).trans hlow
  · rw [isNegative, w.two_pow_bits_sub_one, ← Nat.div_div_eq_div_mul, hquotient, htop]
    cases negative <;> rfl

/-! ## Readings -/

theorem read_of_field
    (hfield : exponentField w a = 2 ^ w.exponentBits - 1) :
    read w a = if fraction w a = 0 then .infinite (isNegative w a) else .nan :=
  if_pos hfield

/-- A word of normal size has a leading one before its fraction. -/
theorem read_of_normal
    (hpos : 0 < exponentField w a) (hlt : exponentField w a < 2 ^ w.exponentBits - 1) :
    read w a = .finite (isNegative w a) (2 ^ w.fractionBits + fraction w a)
      (w.minExponent + (exponentField w a - 1 : Nat)) := by
  rw [read]
  exact (if_neg hlt.ne).trans (if_neg hpos.ne')

theorem read_of_subnormal
    (hfield : exponentField w a = 0) :
    read w a = .finite (isNegative w a) (fraction w a) w.minExponent := by
  have htop : (0 : Nat) ≠ Nat.pow 2 w.exponentBits - 1 := by cases w <;> decide
  rw [read, hfield]
  exact (if_neg htop).trans (if_pos rfl)

/-- What is read from a word, by its field. -/
theorem read_cases (w : Width) (a : Nat) :
    (exponentField w a = 2 ^ w.exponentBits - 1 ∧
        read w a = if fraction w a = 0 then .infinite (isNegative w a) else .nan) ∨
      (exponentField w a = 0 ∧ read w a = .finite (isNegative w a) (fraction w a)
        w.minExponent) ∨
      (0 < exponentField w a ∧ exponentField w a < 2 ^ w.exponentBits - 1 ∧
        read w a = .finite (isNegative w a) (2 ^ w.fractionBits + fraction w a)
          (w.minExponent + (exponentField w a - 1 : Nat))) := by
  have hlt := exponentField_lt w a
  obtain hzero | hpos := Nat.eq_zero_or_pos (exponentField w a)
  · exact .inr (.inl ⟨hzero, read_of_subnormal hzero⟩)
  · by_cases htop : exponentField w a = 2 ^ w.exponentBits - 1
    · exact .inl ⟨htop, read_of_field htop⟩
    · have hnormal : exponentField w a < 2 ^ w.exponentBits - 1 := by omega
      exact .inr (.inr ⟨hpos, hnormal, read_of_normal hpos hnormal⟩)

theorem fields_of_nan
    (h : read w a = .nan) :
    exponentField w a = 2 ^ w.exponentBits - 1 ∧ fraction w a ≠ 0 := by
  obtain ⟨hfield, hread⟩ | ⟨-, hread⟩ | ⟨-, -, hread⟩ := read_cases w a
  · refine ⟨hfield, fun hzero => ?_⟩
    rw [hread, if_pos hzero] at h
    cases h
  · rw [hread] at h
    cases h
  · rw [hread] at h
    cases h

theorem fields_of_infinite
    (h : read w a = .infinite negative) :
    exponentField w a = 2 ^ w.exponentBits - 1 ∧ fraction w a = 0 ∧
      isNegative w a = negative := by
  obtain ⟨hfield, hread⟩ | ⟨-, hread⟩ | ⟨-, -, hread⟩ := read_cases w a
  · by_cases hzero : fraction w a = 0
    · rw [hread, if_pos hzero] at h
      exact ⟨hfield, hzero, Reading.infinite.inj h⟩
    · rw [hread, if_neg hzero] at h
      cases h
  · rw [hread] at h
    cases h
  · rw [hread] at h
    cases h

theorem read_eq_nan_iff : read w a = .nan ↔ IsSpecial w a ∧ fraction w a ≠ 0 :=
  ⟨fields_of_nan, fun h => (read_of_field h.1).trans (if_neg h.2)⟩

theorem exists_infinite_iff :
    (∃ negative, read w a = .infinite negative) ↔ IsSpecial w a ∧ fraction w a = 0 := by
  constructor
  · rintro ⟨negative, h⟩
    obtain ⟨hfield, hfraction, -⟩ := fields_of_infinite h
    exact ⟨hfield, hfraction⟩
  · rintro ⟨hfield, hfraction⟩
    exact ⟨_, (read_of_field hfield).trans (if_pos hfraction)⟩

/-- Words that are not special stand for their value. -/
theorem number_of_not_special
    (h : ¬IsSpecial w a) : (read w a).number = some (value w a) := by
  have hsplit (k : Int) : (2 : ℚ) ^ (w.minExponent + k) = 2 ^ (1 - w.bias + k : Int) /
      2 ^ w.fractionBits := by
    rw [w.minExponent_eq, ← zpow_natCast (2 : ℚ), ← zpow_sub₀ two_ne_zero]
    congr 1
    omega
  have hne : (2 : ℚ) ^ w.fractionBits ≠ 0 := pow_ne_zero _ two_ne_zero
  obtain ⟨hspecial, -⟩ | ⟨hfield, hread⟩ | ⟨hpos, -, hread⟩ := read_cases w a
  · exact absurd hspecial h
  · have hunit := hsplit 0
    rw [add_zero, add_zero] at hunit
    rw [hread, Reading.number, value, if_pos hfield, hunit]
    congr 2
    ring
  · have hexponent : (1 - w.bias + (exponentField w a - 1 : Nat) : Int) =
        exponentField w a - w.bias := by omega
    rw [hread, Reading.number, value, if_neg hpos.ne', hsplit, hexponent, Nat.cast_add,
      Nat.cast_pow, Nat.cast_ofNat]
    congr 2
    field_simp

/-- The mantissa of a number has at most one more bit than the fraction, and its
exponent is within the range of the width. -/
theorem bounds_of_finite
    (h : read w a = .finite negative mantissa exponent) :
    mantissa < 2 ^ (w.fractionBits + 1) ∧ w.minExponent ≤ exponent ∧
      exponent + w.fractionBits ≤ w.bias := by
  have hfraction := fraction_lt w a
  have hpow := Nat.pow_succ 2 w.fractionBits
  have hmin := w.minExponent_eq
  have htop := w.two_pow_exponentBits
  have hbias := w.fractionBits_lt_bias
  obtain ⟨-, hread⟩ | ⟨-, hread⟩ | ⟨hpos, hlt, hread⟩ := read_cases w a
  · rw [hread] at h
    split at h <;> cases h
  · rw [hread] at h
    cases h
    exact ⟨by omega, Int.le_refl _, by omega⟩
  · rw [hread] at h
    cases h
    exact ⟨by omega, by omega, by omega⟩

/-! ## The order of words -/

/-- A magnitude in units of the smallest positive number of the width.  An infinity
counts as the power of two above the numbers. -/
def scale (w : Width) (magnitude : Nat) : Nat :=
  if magnitude < 2 ^ w.fractionBits then magnitude
  else (2 ^ w.fractionBits + magnitude % 2 ^ w.fractionBits) *
    2 ^ (magnitude / 2 ^ w.fractionBits - 1)

/-- The number of a word.  An infinity counts as the power of two above the numbers of
its width. -/
def level (w : Width) (a : Nat) : ℚ :=
  signed (isNegative w a) (scale w (magnitude w a) : Int) * 2 ^ w.minExponent

theorem scale_lt (w : Width) (m : Nat) :
    scale w m < 2 ^ w.fractionBits * 2 ^ (m / 2 ^ w.fractionBits) := by
  have hmod : m % 2 ^ w.fractionBits < 2 ^ w.fractionBits :=
    Nat.mod_lt _ (Nat.two_pow_pos _)
  rw [scale]
  split
  · rename_i hsmall
    rw [Nat.div_eq_of_lt hsmall]
    omega
  · rename_i hlarge
    have hpos : 0 < m / 2 ^ w.fractionBits :=
      Nat.div_pos (Nat.not_lt.mp hlarge) (Nat.two_pow_pos _)
    obtain ⟨k, hk⟩ := Nat.exists_eq_add_of_lt hpos
    rw [hk, Nat.zero_add, Nat.add_sub_cancel, Nat.pow_succ, Nat.mul_comm (2 ^ k),
      ← Nat.mul_assoc]
    exact Nat.mul_lt_mul_of_pos_right (by omega) (Nat.two_pow_pos _)

theorem le_scale
    {m : Nat} (h : 2 ^ w.fractionBits ≤ m) :
    2 ^ w.fractionBits * 2 ^ (m / 2 ^ w.fractionBits - 1) ≤ scale w m := by
  rw [scale, if_neg (Nat.not_lt.mpr h)]
  exact Nat.mul_le_mul_right _ (Nat.le_add_right _ _)

/-- A larger field outweighs every fraction. -/
theorem strictMono_scale (w : Width) : StrictMono (scale w) := by
  intro m m' hlt
  have hpos : 0 < 2 ^ w.fractionBits := Nat.two_pow_pos _
  obtain hfield | hfield :=
    Nat.lt_or_eq_of_le (Nat.div_le_div_right (c := 2 ^ w.fractionBits) hlt.le)
  · have hlarge : 2 ^ w.fractionBits ≤ m' := by
      by_contra hsmall
      rw [Nat.div_eq_of_lt (Nat.not_le.mp hsmall)] at hfield
      exact Nat.not_lt_zero _ hfield
    calc
      scale w m < 2 ^ w.fractionBits * 2 ^ (m / 2 ^ w.fractionBits) := scale_lt w m
      _ ≤ 2 ^ w.fractionBits * 2 ^ (m' / 2 ^ w.fractionBits - 1) :=
        Nat.mul_le_mul_left _ (Nat.pow_le_pow_right (by decide) (by omega))
      _ ≤ scale w m' := le_scale hlarge
  · have hm := Nat.div_add_mod m (2 ^ w.fractionBits)
    have hm' := Nat.div_add_mod m' (2 ^ w.fractionBits)
    rw [← hfield] at hm'
    by_cases hsmall : m' < 2 ^ w.fractionBits
    · rw [scale, scale, if_pos hsmall, if_pos (hlt.trans hsmall)]
      exact hlt
    · have hlarge : ¬m < 2 ^ w.fractionBits := by
        intro h
        rw [Nat.div_eq_of_lt h] at hfield
        exact absurd hfield (Nat.div_pos (Nat.not_lt.mp hsmall) hpos).ne
      rw [scale, scale, if_neg hsmall, if_neg hlarge, hfield]
      exact Nat.mul_lt_mul_of_pos_right (by omega) (Nat.two_pow_pos _)

theorem scale_zero (w : Width) : scale w 0 = 0 :=
  if_pos (Nat.two_pow_pos _)

theorem signed_lt_signed_iff
    {f : Nat → Nat} (hf : StrictMono f) (hzero : f 0 = 0) (s s' : Bool) (m m' : Nat) :
    signed s (f m : Int) < signed s' (f m' : Int) ↔ signed s (m : Int) < signed s'
      (m' : Int) := by
  have hm := hf.lt_iff_lt (a := 0) (b := m)
  have hm' := hf.lt_iff_lt (a := 0) (b := m')
  have hlt := hf.lt_iff_lt (a := m) (b := m')
  have hgt := hf.lt_iff_lt (a := m') (b := m)
  rw [hzero] at hm hm'
  cases s <;> cases s' <;> simp only [signed, if_true, Bool.false_eq_true, if_false] <;>
    omega

theorem key_eq (w : Width) (a : Nat) :
    key w a = signed (isNegative w a) (magnitude w a : Int) := by
  rfl

theorem key_lt_iff : key w a < key w b ↔ level w a < level w b := by
  have hunit : (0 : ℚ) < 2 ^ w.minExponent := zpow_pos (by norm_num) _
  rw [key_eq, key_eq, ← signed_lt_signed_iff (strictMono_scale w) (scale_zero w),
    level, level, mul_lt_mul_iff_left₀ hunit, Int.cast_lt]

theorem lt_iff : lt w a b = true ↔ read w a ≠ .nan ∧ read w b ≠ .nan ∧
    level w a < level w b := by
  simp only [lt, isNaN, Bool.and_eq_true, Bool.not_eq_true', decide_eq_false_iff_not,
    decide_eq_true_eq, and_assoc, key_lt_iff, ne_eq]

theorem le_iff : le w a b = true ↔ read w a ≠ .nan ∧ read w b ≠ .nan ∧
    level w a ≤ level w b := by
  simp only [le, isNaN, Bool.and_eq_true, Bool.not_eq_true', decide_eq_false_iff_not,
    decide_eq_true_eq, and_assoc, ← not_lt, key_lt_iff, ne_eq]

/-- The magnitude of a word by its fields. -/
theorem scale_magnitude (w : Width) (a : Nat) :
    scale w (magnitude w a) = if exponentField w a = 0 then fraction w a
      else (2 ^ w.fractionBits + fraction w a) * 2 ^ (exponentField w a - 1) := by
  have hfraction := fraction_lt w a
  obtain ⟨hquotient, hremainder⟩ := div_mod_of_lt (q := exponentField w a) hfraction
  rw [magnitude_eq, scale]
  by_cases hzero : exponentField w a = 0
  · rw [if_pos hzero, hzero, Nat.mul_zero, Nat.zero_add, if_pos hfraction]
  · have hlarge : 2 ^ w.fractionBits ≤ 2 ^ w.fractionBits * exponentField w a :=
      Nat.le_mul_of_pos_right _ (Nat.pos_of_ne_zero hzero)
    rw [if_neg hzero, if_neg (by omega), hquotient, hremainder]

theorem signed_cast_mul (negative : Bool) (n : Nat) (u : ℚ) :
    ((signed negative (n : Int) : Int) : ℚ) * u = signed negative (n * u) := by
  cases negative <;> simp [signed]

/-- A finite word counts as its number. -/
theorem level_of_finite
    (h : read w a = .finite negative mantissa exponent) :
    level w a = signed negative (mantissa * 2 ^ exponent : ℚ) := by
  rw [level, signed_cast_mul, scale_magnitude]
  obtain ⟨-, hread⟩ | ⟨hfield, hread⟩ | ⟨hpos, -, hread⟩ := read_cases w a
  · rw [hread] at h
    split at h <;> cases h
  · rw [hread] at h
    cases h
    rw [if_pos hfield]
  · rw [hread] at h
    cases h
    rw [if_neg hpos.ne', Nat.cast_mul, Nat.cast_pow, Nat.cast_ofNat, mul_assoc,
      ← zpow_natCast (2 : ℚ), ← zpow_add₀ two_ne_zero, add_comm w.minExponent]

theorem level_of_number
    {q : ℚ} (h : (read w a).number = some q) : level w a = q := by
  cases hread : read w a with
  | nan => rw [hread] at h; cases h
  | infinite => rw [hread] at h; cases h
  | finite negative mantissa exponent =>
    rw [hread] at h
    rw [level_of_finite hread]
    exact Option.some.inj h

theorem level_of_infinite
    (h : read w a = .infinite negative) :
    level w a = signed negative (2 ^ (w.bias + 1) : ℚ) := by
  obtain ⟨hfield, hfraction, hsign⟩ := fields_of_infinite h
  have htop := w.two_pow_exponentBits
  have hpos : exponentField w a ≠ 0 := by omega
  have hexponent : ((w.fractionBits + (exponentField w a - 1) : Nat) : Int) +
      w.minExponent = (w.bias + 1 : Nat) := by
    have hmin := w.minExponent_eq
    omega
  rw [level, signed_cast_mul, scale_magnitude, if_neg hpos, hfraction, hsign,
    Nat.add_zero, ← Nat.pow_add, Nat.cast_pow, Nat.cast_ofNat, ← zpow_natCast (2 : ℚ),
    ← zpow_add₀ two_ne_zero, hexponent, zpow_natCast]

/-! ## Words made from numbers -/

theorem log2_le_of_lt {m p : Nat} (h : m < 2 ^ (p + 1)) : m.log2 ≤ p := by
  by_cases hzero : m = 0
  · rw [hzero, Nat.log2_zero]
    exact Nat.zero_le p
  · exact Nat.le_of_lt_succ ((Nat.log2_lt hzero).mpr h)

/-- The fields of a word with room for the mantissa and the exponent hold the mantissa
with its leading one moved to the front. -/
theorem read_encode
    (hne : mantissa ≠ 0) (hmantissa : mantissa.log2 ≤ w.fractionBits)
    (hlow : 0 < w.bias + mantissa.log2 + exponent)
    (hhigh : mantissa.log2 + exponent ≤ w.bias) :
    read w (encode w negative mantissa exponent) =
      .finite negative (mantissa * 2 ^ (w.fractionBits - mantissa.log2))
        (exponent - (w.fractionBits - mantissa.log2 : Nat)) := by
  have htop := w.two_pow_exponentBits
  have hmin := w.minExponent_eq
  have hpow : 2 ^ mantissa.log2 * 2 ^ (w.fractionBits - mantissa.log2) =
      2 ^ w.fractionBits := by
    rw [← Nat.pow_add, Nat.add_sub_cancel' hmantissa]
  have hpow' : 2 ^ (mantissa.log2 + 1) * 2 ^ (w.fractionBits - mantissa.log2) =
      2 * 2 ^ w.fractionBits := by
    rw [Nat.pow_succ, ← hpow]
    ring
  have hfront : 2 ^ w.fractionBits ≤ mantissa * 2 ^ (w.fractionBits - mantissa.log2) :=
    hpow ▸ Nat.mul_le_mul_right _ (Nat.log2_self_le hne)
  have hfit : mantissa * 2 ^ (w.fractionBits - mantissa.log2) <
      2 * 2 ^ w.fractionBits :=
    hpow' ▸ Nat.mul_lt_mul_of_pos_right Nat.lt_log2_self (Nat.two_pow_pos _)
  have hword : encode w negative mantissa exponent =
      signBit w negative + (w.bias + mantissa.log2 + exponent).toNat *
        2 ^ w.fractionBits
        + (mantissa * 2 ^ (w.fractionBits - mantissa.log2) - 2 ^ w.fractionBits) :=
    if_neg hne
  obtain ⟨hfield, hfraction, hsign⟩ := fields_eq (by omega) (by omega) negative hword
  rw [read_of_normal (by omega) (by omega), hfield, hfraction, hsign]
  congr 1 <;> omega

/-- The word of a number that has room in its fields stands for that number. -/
theorem number_encode
    (hmantissa : mantissa.log2 ≤ w.fractionBits)
    (hlow : 0 < w.bias + mantissa.log2 + exponent)
    (hhigh : mantissa.log2 + exponent ≤ w.bias) (negative : Bool) :
    (read w (encode w negative mantissa exponent)).number =
      some (signed negative ((mantissa : ℚ) * 2 ^ exponent)) := by
  by_cases hzero : mantissa = 0
  · have hpos : 0 < 2 ^ w.exponentBits := Nat.two_pow_pos _
    have hword : encode w negative mantissa exponent = signBit w negative + 0 *
        2 ^ w.fractionBits + 0 := by
      rw [encode, if_pos hzero, Nat.zero_mul]
      rfl
    obtain ⟨hfield, hfraction, hsign⟩ :=
      fields_eq hpos (Nat.two_pow_pos _) negative hword
    rw [read_of_subnormal hfield, hfraction, hsign, hzero, Reading.number,
      Nat.cast_zero, zero_mul, zero_mul]
  · rw [read_encode hzero hmantissa hlow hhigh, Reading.number, Nat.cast_mul,
      Nat.cast_pow, Nat.cast_ofNat, mul_assoc, ← zpow_natCast (2 : ℚ),
      ← zpow_add₀ two_ne_zero, add_sub_cancel]

theorem read_infinity (w : Width) (negative : Bool) :
    read w (infinity w negative) = .infinite negative := by
  have hpos : 0 < 2 ^ w.exponentBits := Nat.two_pow_pos _
  have hfield : 2 ^ w.exponentBits - 1 < 2 ^ w.exponentBits := by omega
  obtain ⟨hfield, hfraction, hsign⟩ :=
    fields_eq hfield (Nat.two_pow_pos _) negative (rfl : infinity w negative = _)
  rw [read_of_field hfield, if_pos hfraction, hsign]

/-- Setting the quiet bit touches no other field. -/
theorem read_quiet
    (h : read w a = .nan) : read w (quiet w a) = .nan := by
  obtain ⟨hfield, -⟩ := fields_of_nan h
  rw [quiet]
  split
  · rename_i hsmall
    have hpos : 0 < 2 ^ (w.fractionBits - 1) := Nat.two_pow_pos _
    have hhalves : 2 ^ w.fractionBits = 2 ^ (w.fractionBits - 1) +
        2 ^ (w.fractionBits - 1) := by cases w <;> rfl
    have hsplit : a + 2 ^ (w.fractionBits - 1) =
        2 ^ w.fractionBits * (a / 2 ^ w.fractionBits) +
          (fraction w a + 2 ^ (w.fractionBits - 1)) := by
      have := Nat.div_add_mod a (2 ^ w.fractionBits)
      rw [← Nat.add_assoc]
      exact congrArg (· + _) this.symm
    obtain ⟨hquotient, hremainder⟩ :=
      div_mod_of_lt (n := 2 ^ w.fractionBits) (q := a / 2 ^ w.fractionBits)
        (r := fraction w a + 2 ^ (w.fractionBits - 1))
          (hhalves ▸ Nat.add_lt_add_right hsmall _)
    rw [← hsplit] at hquotient hremainder
    have hfield' : exponentField w (a + 2 ^ (w.fractionBits - 1)) =
        2 ^ w.exponentBits - 1 :=
      (congrArg (· % 2 ^ w.exponentBits) hquotient).trans hfield
    have hfraction : fraction w (a + 2 ^ (w.fractionBits - 1)) ≠ 0 := by
      intro hzero
      have := hremainder.symm.trans hzero
      omega
    exact (read_of_field hfield').trans (if_neg hfraction)
  · exact h

/-! ## Widening -/

theorem read_promote_nan
    (h : read .w32 a = .nan) : read .w64 (promote a) = .nan := by
  obtain ⟨-, hfraction⟩ := fields_of_nan h
  have hlt : fraction .w32 a * 2 ^ 29 < 2 ^ Width.w64.fractionBits := by
    have hfraction : fraction .w32 a < 2 ^ 23 := fraction_lt .w32 a
    rw [Width.fractionBits]
    omega
  have hword : infinity .w64 (isNegative .w32 a) + fraction .w32 a * 2 ^ 29 =
      signBit .w64 (isNegative .w32 a) + (2 ^ Width.w64.exponentBits - 1) *
        2 ^ Width.w64.fractionBits
        + fraction .w32 a * 2 ^ 29 :=
    rfl
  obtain ⟨hfield, hrest, -⟩ := fields_eq (by decide) hlt _ hword
  rw [promote, h]
  apply read_quiet
  exact (read_of_field hfield).trans (if_neg (by rw [hrest]; omega))

theorem read_widen_nan
    (h : read w a = .nan) : read .w64 (widen w a) = .nan := by
  cases w with
  | w32 => exact read_promote_nan h
  | w64 => exact h

theorem read_widen_infinite
    (h : read w a = .infinite negative) :
    read .w64 (widen w a) = .infinite negative := by
  cases w with
  | w32 =>
    rw [widen, promote, h]
    exact read_infinity .w64 negative
  | w64 => exact h

/-- Every number of the narrow width has its word in the wide one. -/
theorem number_widen
    {q : ℚ} (h : (read w a).number = some q) :
    (read .w64 (widen w a)).number = some q := by
  cases w with
  | w64 => exact h
  | w32 =>
    cases hread : read .w32 a with
    | nan => rw [hread] at h; cases h
    | infinite => rw [hread] at h; cases h
    | finite negative mantissa exponent =>
      obtain ⟨hmantissa, hlow, hhigh⟩ := bounds_of_finite hread
      have hlog : mantissa.log2 ≤ 23 := log2_le_of_lt hmantissa
      simp only [Width.minExponent, Width.bias, Width.fractionBits] at hlow hhigh
      rw [widen, promote, hread, ← h, hread]
      apply number_encode
      · exact hlog.trans (by decide)
      · simp only [Width.bias]
        omega
      · simp only [Width.bias]
        omega

/-! ## Rounding toward zero -/

theorem wholePart_intCast (n : Int) : wholePart (n : ℚ) = n := by
  rw [wholePart]
  split
  · exact Int.ceil_intCast n
  · exact Int.floor_intCast n

theorem wholePart_eq_zero {q : ℚ} (hlow : -1 < q) (hhigh : q < 0) :
    wholePart q = 0 := by
  rw [wholePart, if_pos hhigh, Int.ceil_eq_zero_iff]
  exact ⟨hlow, hhigh.le⟩

theorem wholePart_signed
    (negative : Bool) {q : ℚ} (h : 0 ≤ q) :
    wholePart (signed negative q) = signed negative ⌊q⌋ := by
  cases negative with
  | false => exact if_neg (not_lt.mpr h)
  | true =>
    by_cases hzero : q = 0
    · subst hzero
      simp [signed, wholePart]
    · have hneg : -q < 0 := neg_lt_zero.mpr (lt_of_le_of_ne h (Ne.symm hzero))
      exact (if_pos hneg).trans Int.ceil_neg

/-- The integer part of a number is the number without its fraction. -/
theorem wholePart_number (negative : Bool) (mantissa : Nat) (exponent : Int) :
    wholePart (signed negative ((mantissa : ℚ) * 2 ^ exponent)) =
      integerPart negative mantissa exponent := by
  have hnonneg : (0 : ℚ) ≤ mantissa * 2 ^ exponent :=
    mul_nonneg mantissa.cast_nonneg (zpow_nonneg zero_le_two exponent)
  rw [wholePart_signed negative hnonneg]
  refine congrArg (signed negative) ?_
  by_cases hexponent : 0 ≤ exponent
  · obtain ⟨k, rfl⟩ := Int.eq_ofNat_of_zero_le hexponent
    rw [if_pos hexponent, zpow_natCast, Int.toNat_natCast]
    exact_mod_cast Int.floor_natCast (R := ℚ) (mantissa * 2 ^ k)
  · obtain ⟨k, rfl⟩ := Int.eq_negSucc_of_lt_zero (not_le.mp hexponent)
    rw [if_neg hexponent, zpow_negSucc, ← div_eq_mul_inv]
    exact_mod_cast Rat.floor_natCast_div_natCast mantissa (2 ^ (k + 1))

theorem toInteger_of_number
    {q : ℚ} (h : (read w a).number = some q) : toInteger w a = wholePart q := by
  cases hread : read w a with
  | nan => rw [hread] at h; cases h
  | infinite => rw [hread] at h; cases h
  | finite negative mantissa exponent =>
    rw [hread] at h
    rw [toInteger, hread, ← Option.some.inj h, wholePart_number]

/-- A number rounded toward zero loses its fraction and nothing else. -/
theorem number_towardZero
    {q : ℚ} (h : (read w a).number = some q) :
    (read w (Rounding.towardZero.apply w a)).number = some (wholePart q : ℚ) := by
  cases hread : read w a with
  | nan => rw [hread] at h; cases h
  | infinite => rw [hread] at h; cases h
  | finite negative mantissa exponent =>
    have hq : signed negative ((mantissa : ℚ) * 2 ^ exponent) = q := by
      rw [hread] at h
      exact Option.some.inj h
    obtain ⟨hmantissa, -, -⟩ := bounds_of_finite hread
    rw [Rounding.apply, hread, ← hq, wholePart_number, integerPart]
    by_cases hexponent : 0 ≤ exponent
    · -- Without a fraction there is nothing to drop.
      obtain ⟨k, rfl⟩ := Int.eq_ofNat_of_zero_le hexponent
      simp only [if_pos hexponent, hread, Reading.number, Int.toNat_natCast,
        zpow_natCast]
      cases negative <;> simp [signed]
    · have hquotient : (mantissa / 2 ^ (-exponent).toNat).log2 ≤ w.fractionBits :=
        log2_le_of_lt ((Nat.div_le_self _ _).trans_lt hmantissa)
      have hbias := w.fractionBits_lt_bias
      have hencoded := @number_encode w _ 0 hquotient (by omega) (by omega) negative
      simp only [if_neg hexponent]
      refine hencoded.trans (congrArg some ?_)
      rw [← signed_cast_mul, zpow_zero, mul_one]
      rfl

end Binary
end WebAssembly
