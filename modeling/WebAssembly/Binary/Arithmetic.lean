import WebAssembly.Binary.Format

/-!
# Floating-point arithmetic

The arithmetic that rounds: sums, products, quotients, square roots and conversions
between the widths and from integers.  Every operation takes and gives words and rounds
once, to nearest with ties to even.
-/

namespace WebAssembly
namespace Binary

/-- Applies a function on numbers of the given width to a word. -/
def lift₁ (w : Width) (f : Float32 → Float32) (g : Float → Float) (a : Nat) : Nat :=
  match w with
  | .w32 => (f (Float32.ofBits a.toUInt32)).toBits.toNat
  | .w64 => (g (Float.ofBits a.toUInt64)).toBits.toNat

/-- Applies a function on two numbers of the given width to words. -/
def lift₂ (w : Width) (f : Float32 → Float32 → Float32) (g : Float → Float → Float)
    (a b : Nat) : Nat :=
  match w with
  | .w32 => (f (Float32.ofBits a.toUInt32) (Float32.ofBits b.toUInt32)).toBits.toNat
  | .w64 => (g (Float.ofBits a.toUInt64) (Float.ofBits b.toUInt64)).toBits.toNat

def add (w : Width) : Nat → Nat → Nat := lift₂ w (· + ·) (· + ·)
def sub (w : Width) : Nat → Nat → Nat := lift₂ w (· - ·) (· - ·)
def mul (w : Width) : Nat → Nat → Nat := lift₂ w (· * ·) (· * ·)
def div (w : Width) : Nat → Nat → Nat := lift₂ w (· / ·) (· / ·)
def sqrt (w : Width) : Nat → Nat := lift₁ w Float32.sqrt Float.sqrt

/-- A 64-bit number rounded to 32 bits. -/
def demote (a : Nat) : Nat :=
  (Float.ofBits a.toUInt64).toFloat32.toBits.toNat

/-- A 32-bit number as a 64-bit one.  A NaN keeps its sign and its fraction and no
longer signals. -/
def promote (a : Nat) : Nat :=
  match read .w32 a with
  | .nan =>
    let shift := Width.w64.fractionBits - Width.w32.fractionBits
    quiet .w64 (infinity .w64 (isNegative .w32 a) + fraction .w32 a * Nat.pow 2 shift)
  | .infinite negative => infinity .w64 negative
  | .finite negative mantissa exponent => encode .w64 negative mantissa exponent

/-- A number of the given width as a 64-bit one. -/
def widen (w : Width) (a : Nat) : Nat :=
  match w with
  | .w32 => promote a
  | .w64 => a

/-- A signed 64-bit integer rounded to a number of the given width. -/
def ofSigned (w : Width) (n : Int64) : Nat :=
  match w with
  | .w32 => n.toFloat32.toBits.toNat
  | .w64 => n.toFloat.toBits.toNat

/-- An unsigned 64-bit integer rounded to a number of the given width. -/
def ofUnsigned (w : Width) (n : UInt64) : Nat :=
  match w with
  | .w32 => n.toFloat32.toBits.toNat
  | .w64 => n.toFloat.toBits.toNat

/-- The magnitude of the first word with the sign of the second. -/
def copySign (w : Width) (a b : Nat) : Nat :=
  magnitude w a + signBit w (isNegative w b)

/-- The word with its sign bit cleared. -/
def abs (w : Width) (a : Nat) : Nat :=
  magnitude w a

/-- The word with its sign bit flipped. -/
def neg (w : Width) (a : Nat) : Nat :=
  magnitude w a + signBit w (!isNegative w a)

end Binary
end WebAssembly
