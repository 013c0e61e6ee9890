/-!
# Numbers of documents

Integers and floats, given by the characters that they are written with.  Underscores
may stand between digits, and a decimal number has no leading zero.
-/

namespace WebAssembly
namespace Toml

def isHexDigit (c : Char) : Bool :=
  c.isDigit || ('a' ≤ c && c ≤ 'f') || ('A' ≤ c && c ≤ 'F')

def digitValue (c : Char) : Nat :=
  if c.isDigit then c.toNat - '0'.toNat
  else if 'a' ≤ c && c ≤ 'f' then c.toNat - 'a'.toNat + 10
  else c.toNat - 'A'.toNat + 10

def digitsValue (base : Nat) (digits : List Char) : Nat :=
  digits.foldl (fun n c => base * n + digitValue c) 0

/-- Whether every underscore follows a digit and the last character is a digit; `after`
tells whether a digit comes before. -/
def underscoresFit (after : Bool) : List Char → Bool
  | [] => after
  | c :: rest => (c ≠ '_' || after) && underscoresFit (isHexDigit c) rest

/-- Whether a number begins with a zero that is not its only digit and marks no base. -/
def hasLeadingZero : List Char → Bool
  | '0' :: c :: _ => !(c = 'b' || c = 'o' || c = 'x')
  | sign :: '0' :: _ :: _ => sign = '+' || sign = '-'
  | _ => false

def withoutUnderscores (chars : List Char) : List Char :=
  chars.filter (· ≠ '_')

/-- The integer of a number without underscores. -/
def integerValue : List Char → Int
  | '0' :: 'x' :: digits => digitsValue 16 digits
  | '0' :: 'o' :: digits => digitsValue 8 digits
  | '0' :: 'b' :: digits => digitsValue 2 digits
  | '-' :: digits => -(digitsValue 10 digits : Int)
  | '+' :: digits => digitsValue 10 digits
  | digits => digitsValue 10 digits

/-- The integer that characters stand for, if they are well-formed and it fits into 64
bits with a sign. -/
def integer? (chars : List Char) : Option Int :=
  let n := integerValue (withoutUnderscores chars)
  if underscoresFit false chars && !hasLeadingZero chars && Int64.minValue.toInt ≤ n &&
    n ≤ Int64.maxValue.toInt then some n
  else none

/-- The parts of a float between its point and the marks of its exponent; empty parts
are left out. -/
def floatParts (chars : List Char) : List (List Char) :=
  let (part, parts) := chars.foldr
    (fun c (part, parts) =>
      if c = '.' || c = 'e' || c = 'E' then ([], part :: parts) else (c :: part, parts))
    ([], [])
  (part :: parts).filter (!·.isEmpty)

def pointsFit : List Char → Bool
  | [] => true
  | '.' :: rest => (rest.head?.any Char.isDigit) && pointsFit rest
  | _ :: rest => pointsFit rest

/-- The characters without a sign in front, and whether the sign is a minus. -/
def splitSign : List Char → Bool × List Char
  | '-' :: rest => (true, rest)
  | '+' :: rest => (false, rest)
  | chars => (false, chars)

/-- The exponent that follows the digits of a float. -/
def exponentValue : List Char → Option Int
  | [] => some 0
  | mark :: rest =>
    let (negative, digits) := splitSign rest
    if (mark = 'e' || mark = 'E') && !digits.isEmpty && digits.all Char.isDigit then
      let n : Int := digitsValue 10 digits
      some (if negative then -n else n)
    else none

/-- The decimal that a float without underscores stands for: its digits as an integer,
and the power of ten by which they are scaled. -/
def decimalValue (chars : List Char) : Option (Nat × Int) := do
  let (_, chars) := splitSign chars
  let (whole, rest) := chars.span Char.isDigit
  let (fraction, rest) := match rest with
    | '.' :: rest => rest.span Char.isDigit
    | rest => ([], rest)
  if whole.isEmpty && fraction.isEmpty then none
  let exponent ← exponentValue rest
  pure (digitsValue 10 (whole ++ fraction), exponent - fraction.length)

/-- The least number that rounds beyond the largest double. -/
def doubleBound : Nat := Nat.pow 2 1024 - Nat.pow 2 970

/-- Whether a decimal is rounded to a finite double. -/
def isFiniteDouble (digits : Nat) (exponent : Int) : Bool :=
  let magnitude := (Nat.toDigits 10 digits).length + exponent
  if digits = 0 || magnitude < 309 then true
  else if magnitude > 309 then false
  else if exponent ≥ 0 then digits * Nat.pow 10 exponent.toNat < doubleBound
  else digits < doubleBound * Nat.pow 10 (-exponent).toNat

/-- Whether characters are a float within range. -/
def isFloat (chars : List Char) : Bool :=
  let parts := floatParts chars
  parts.all (underscoresFit false) && !(parts.head?.any hasLeadingZero) &&
    pointsFit chars &&
    match decimalValue (withoutUnderscores chars) with
    | some (digits, exponent) => isFiniteDouble digits exponent
    | none => false

end Toml
end WebAssembly
