/-!
# Binary interchange formats

The two widths of machine words, and the reading of a word as a binary floating-point
number: a NaN, an infinity, or a signed integer multiple of a power of two.
-/

namespace WebAssembly

/-- The width of an integer or floating-point operand. -/
inductive Width
  | w32
  | w64
  deriving DecidableEq, Repr, Inhabited

namespace Width

def bits : Width → Nat
  | .w32 => 32
  | .w64 => 64

/-- The number of bits of a floating-point fraction. -/
def fractionBits : Width → Nat
  | .w32 => 23
  | .w64 => 52

/-- The number of bits of a floating-point exponent field. -/
def exponentBits : Width → Nat
  | .w32 => 8
  | .w64 => 11

/-- The exponent field of the number one. -/
def bias : Width → Nat
  | .w32 => 127
  | .w64 => 1023

/-- The exponent of the smallest positive floating-point number. -/
def minExponent : Width → Int
  | .w32 => -149
  | .w64 => -1074

end Width

namespace Binary

/-- What a floating-point word stands for; a finite one is `±mantissa · 2 ^
exponent`. -/
inductive Reading
  | nan
  | infinite (negative : Bool)
  | finite (negative : Bool) (mantissa : Nat) (exponent : Int)
  deriving DecidableEq, Repr, Inhabited

def fraction (w : Width) (word : Nat) : Nat :=
  word % Nat.pow 2 w.fractionBits

def exponentField (w : Width) (word : Nat) : Nat :=
  word / Nat.pow 2 w.fractionBits % Nat.pow 2 w.exponentBits

/-- Whether the sign bit of a word is set. -/
def isNegative (w : Width) (word : Nat) : Bool :=
  word / Nat.pow 2 (w.bits - 1) % 2 = 1

/-- A word without its sign bit. -/
def magnitude (w : Width) (word : Nat) : Nat :=
  word % Nat.pow 2 (w.bits - 1)

def signBit (w : Width) (negative : Bool) : Nat :=
  if negative then Nat.pow 2 (w.bits - 1) else 0

def read (w : Width) (word : Nat) : Reading :=
  let field := exponentField w word
  if field = Nat.pow 2 w.exponentBits - 1 then
    if fraction w word = 0 then .infinite (isNegative w word) else .nan
  else if field = 0 then
    .finite (isNegative w word) (fraction w word) w.minExponent
  else
    .finite (isNegative w word) (Nat.pow 2 w.fractionBits + fraction w word)
      (w.minExponent + (field - 1 : Nat))

def isNaN (w : Width) (word : Nat) : Bool :=
  read w word = .nan

/-- A NaN with its quiet bit set, so that it no longer signals. -/
def quiet (w : Width) (word : Nat) : Nat :=
  if fraction w word < Nat.pow 2 (w.fractionBits - 1) then
    word + Nat.pow 2 (w.fractionBits - 1)
  else word

/-- The word of `±mantissa · 2 ^ exponent`, where the mantissa has at most one more bit
than the fraction and the exponent field of the word is in range.  A zero keeps the
given sign. -/
def encode (w : Width) (negative : Bool) (mantissa : Nat) (exponent : Int) : Nat :=
  if mantissa = 0 then signBit w negative
  else
    let top := mantissa.log2
    signBit w negative + (w.bias + top + exponent).toNat * Nat.pow 2 w.fractionBits
      + (mantissa * Nat.pow 2 (w.fractionBits - top) - Nat.pow 2 w.fractionBits)

def infinity (w : Width) (negative : Bool) : Nat :=
  signBit w negative + (Nat.pow 2 w.exponentBits - 1) * Nat.pow 2 w.fractionBits

end Binary
end WebAssembly
