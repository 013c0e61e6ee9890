/-!
# Shortest decimal digits

The fewest decimal digits that identify a binary number among its neighbours, found by
exact arithmetic on natural numbers.
-/

namespace WebAssembly
namespace Decimal

/-- The number `digits · 10 ^ exponent`. -/
structure Digits where
  digits : Nat
  exponent : Int
  deriving DecidableEq, Repr, Inhabited

/-- The numbers that round to one binary number, all in units of `2 ^ exponent`: the
binary number itself and the two ends, which belong to the interval when `closed`. -/
structure Interval where
  low : Nat
  value : Nat
  high : Nat
  exponent : Int
  closed : Bool
  deriving DecidableEq, Repr, Inhabited

namespace Interval

/-- The interval of the number `mantissa · 2 ^ exponent`; the gap below it is halved
when `tight`. -/
def around (mantissa : Nat) (exponent : Int) (tight : Bool) : Interval where
  low := if tight then 4 * mantissa - 1 else 4 * mantissa - 2
  value := 4 * mantissa
  high := 4 * mantissa + 2
  exponent := exponent - 2
  closed := mantissa % 2 = 0

/-- The factors that bring units of `2 ^ exponent` and units of `10 ^ place` to one
unit. -/
def scale (exponent place : Int) : Nat × Nat :=
  (Nat.pow 2 exponent.toNat * Nat.pow 10 (-place).toNat,
    Nat.pow 2 (-exponent).toNat * Nat.pow 10 place.toNat)

/-- Whether `n · 10 ^ place` lies in the interval. -/
def contains (i : Interval) (n : Nat) (place : Int) : Bool :=
  let (binary, decimal) := scale i.exponent place
  let x := n * decimal
  if i.closed then i.low * binary ≤ x && x ≤ i.high * binary
  else i.low * binary < x && x < i.high * binary

/-- The largest place whose power of ten does not exceed the number, looked for
downwards from `place`. -/
def leadingPlace (i : Interval) (place : Int) : Nat → Int
  | 0 => place
  | fuel + 1 =>
    let (binary, decimal) := scale i.exponent place
    if decimal ≤ i.value * binary then place else leadingPlace i (place - 1) fuel

/-- The multiple of `10 ^ place` in the interval that is nearest to the number, the even
one of two equally near, if there is one. -/
def nearest? (i : Interval) (place : Int) : Option Nat :=
  let (binary, decimal) := scale i.exponent place
  let x := i.value * binary
  let below := x / decimal
  let rest := x % decimal
  match i.contains below place, i.contains (below + 1) place with
  | false, false => none
  | true, false => some below
  | false, true => some (below + 1)
  | true, true =>
    if 2 * rest < decimal || (2 * rest = decimal && below % 2 = 0) then some below
    else some (below + 1)

/-- The first place, going down from `place`, at which a multiple lies in the
interval. -/
def search (i : Interval) (place : Int) : Nat → Digits
  | 0 => ⟨0, 0⟩
  | fuel + 1 =>
    match i.nearest? place with
    | some n => ⟨n, place⟩
    | none => search i (place - 1) fuel

/-- A place that lies at or a little above the leading one, from the size of the number
in bits. -/
def placeEstimate (i : Interval) : Int :=
  (i.value.log2 + i.exponent + 1) * 30103 / 100000 + 1

/-- The fewest digits that name a number of the interval, nearest to its number. -/
def shortest (i : Interval) : Digits :=
  i.search (i.leadingPlace i.placeEstimate 8) 20

end Interval
end Decimal
end WebAssembly
