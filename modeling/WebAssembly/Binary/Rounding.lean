import WebAssembly.Binary.Format

/-!
# Rounding to an integer

The four roundings of a floating-point number to an integral one, and truncation to a
machine integer, all computed exactly from the mantissa and the exponent.
-/

namespace WebAssembly
namespace Binary

/-- A way to round to an integer. -/
inductive Rounding
  | up
  | down
  | towardZero
  | nearestEven
  deriving DecidableEq, Repr, Inhabited

namespace Rounding

/-- Whether a magnitude between `quotient` and its successor goes to the successor,
where `rest` of `unit` parts lie above the quotient. -/
def bumps (rounding : Rounding) (negative : Bool) (quotient rest unit : Nat) : Bool :=
  match rounding with
  | .up => !negative && rest ≠ 0
  | .down => negative && rest ≠ 0
  | .towardZero => false
  | .nearestEven => unit < 2 * rest || (2 * rest = unit && quotient % 2 = 1)

/-- The magnitude of `±mantissa / unit` rounded to an integer. -/
def quotient (rounding : Rounding) (negative : Bool) (mantissa unit : Nat) : Nat :=
  let floor := mantissa / unit
  if rounding.bumps negative floor (mantissa % unit) unit then floor + 1 else floor

/-- Rounds a floating-point word to an integral one.  Infinities and zeros stay, a
number that rounds to zero keeps its sign, and a NaN stays a NaN. -/
def apply (rounding : Rounding) (w : Width) (word : Nat) : Nat :=
  match read w word with
  | .nan => quiet w word
  | .infinite _ => word
  | .finite negative mantissa exponent =>
    if 0 ≤ exponent then word
    else encode w negative (rounding.quotient negative mantissa
      (Nat.pow 2 (-exponent).toNat)) 0

end Rounding

/-- The integer part of `±mantissa · 2 ^ exponent`: the fraction is dropped. -/
def integerPart (negative : Bool) (mantissa : Nat) (exponent : Int) : Int :=
  let size : Nat :=
    if 0 ≤ exponent then mantissa * Nat.pow 2 exponent.toNat
    else mantissa / Nat.pow 2 (-exponent).toNat
  if negative then -size else size

def toInteger (w : Width) (word : Nat) : Int :=
  match read w word with
  | .finite negative mantissa exponent => integerPart negative mantissa exponent
  | _ => 0

end Binary
end WebAssembly
