import WebAssembly.Binary.Format

/-!
# Order of floating-point numbers

Words that are not NaN compare as signed magnitudes, so that the two zeros are equal.  A
NaN is unequal to everything and ordered against nothing.
-/

namespace WebAssembly
namespace Binary

def key (w : Width) (word : Nat) : Int :=
  if isNegative w word then -(magnitude w word : Int) else magnitude w word

/-- Equality of numbers. -/
def eq (w : Width) (a b : Nat) : Bool :=
  !isNaN w a && !isNaN w b && key w a = key w b

/-- Strict order of numbers. -/
def lt (w : Width) (a b : Nat) : Bool :=
  !isNaN w a && !isNaN w b && key w a < key w b

/-- Order of numbers. -/
def le (w : Width) (a b : Nat) : Bool :=
  !isNaN w a && !isNaN w b && key w a ≤ key w b

/-- The NaN that a minimum or maximum of a NaN gives. -/
def extremumNaN : Width → Nat
  | .w32 => 0x7fc00000
  | .w64 => 0x7ff8000000000001

/-- The smaller of two numbers.  A NaN operand gives a NaN, and negative zero lies below
positive zero. -/
def min (w : Width) (a b : Nat) : Nat :=
  if isNaN w a || isNaN w b then extremumNaN w
  else if key w a < key w b then a
  else if key w b < key w a then b
  else if isNegative w a then a
  else b

/-- The larger of two numbers.  A NaN operand gives a NaN, and positive zero lies above
negative zero. -/
def max (w : Width) (a b : Nat) : Nat :=
  if isNaN w a || isNaN w b then extremumNaN w
  else if key w b < key w a then a
  else if key w a < key w b then b
  else if isNegative w a then b
  else a

end Binary
end WebAssembly
