import WebAssembly.Binary.Format
import WebAssembly.Decimal.Shortest

/-!
# Text of floating-point numbers

A number is written with its shortest digits, positionally or with an exponent.  Where
one notation ends and the other begins, and how an exponent is written, is a matter of
the layout.
-/

namespace WebAssembly
namespace Decimal

/-- How a number is laid out. -/
structure Layout where
  /-- The least decimal exponent that is written positionally. -/
  least : Int
  /-- The least decimal exponent above which an exponent is written again. -/
  bound : Int
  /-- The least number of digits of an exponent. -/
  exponentDigits : Nat
  deriving DecidableEq, Repr, Inhabited

namespace Layout

/-- Decimal exponents from -4 to 5 are written positionally, others with at least two
digits. -/
def compact : Layout := ⟨-4, 6, 2⟩

/-- Digits with the decimal point behind the first one, if more follow. -/
def pointed : List Char → List Char
  | [] => ['0']
  | [c] => [c]
  | c :: rest => c :: '.' :: rest

/-- An exponent with its sign, padded on the left. -/
def exponentText (layout : Layout) (exponent : Int) : List Char :=
  let digits := Nat.toDigits 10 exponent.natAbs
  (if exponent < 0 then '-' else '+') ::
    (List.replicate (layout.exponentDigits - digits.length) '0' ++ digits)

/-- Digits in positional notation, the first of them at the place `exponent`. -/
def positional (digits : List Char) (exponent : Int) : List Char :=
  if exponent < 0 then
    '0' :: '.' :: (List.replicate (-exponent - 1).toNat '0' ++ digits)
  else
    let whole := exponent.toNat + 1
    if digits.length ≤ whole then digits ++ List.replicate (whole - digits.length) '0'
    else digits.take whole ++ '.' :: digits.drop whole

/-- A positive number laid out. -/
def digitsText (layout : Layout) (n : Digits) : List Char :=
  let written := Nat.toDigits 10 n.digits
  let exponent := n.exponent + (written.length - 1 : Nat)
  let digits := (written.reverse.dropWhile (· = '0')).reverse
  if exponent < layout.least || layout.bound ≤ exponent then
    pointed digits ++ 'e' :: layout.exponentText exponent
  else positional digits exponent

def text (layout : Layout) (w : Width) (word : Nat) : String :=
  match Binary.read w word with
  | .nan => "NaN"
  | .infinite negative => if negative then "-Inf" else "+Inf"
  | .finite negative mantissa exponent =>
    let digits :=
      if mantissa = 0 then ['0']
      else
        let tight := mantissa = Nat.pow 2 w.fractionBits && w.minExponent < exponent
        layout.digitsText (Interval.around mantissa exponent tight).shortest
    String.ofList (if negative then '-' :: digits else digits)

end Layout
end Decimal
end WebAssembly
