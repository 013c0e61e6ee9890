/-!
# Times of documents

A date, a time of day, or both, and with both also an offset.  Letters may be lower
case, a space may stand between date and time, and seconds may be left out.
-/

namespace WebAssembly
namespace Toml

/-- Reads a number of exactly `count` digits, starting from the value read so far. -/
def digitsOf (value : Nat) : Nat → List Char → Option (Nat × List Char)
  | 0, rest => some (value, rest)
  | count + 1, c :: rest =>
    if c.isDigit then digitsOf (10 * value + (c.toNat - '0'.toNat)) count rest else none
  | _ + 1, [] => none

def literally (wanted : Char) : List Char → Option (List Char)
  | c :: rest => if c = wanted then some rest else none
  | [] => none

def isLeap (year : Nat) : Bool :=
  year % 4 = 0 && (year % 100 ≠ 0 || year % 400 = 0)

def daysIn (year month : Nat) : Nat :=
  if month = 2 then (if isLeap year then 29 else 28)
  else if month = 4 || month = 6 || month = 9 || month = 11 then 30
  else 31

def skipDate (chars : List Char) : Option (List Char) := do
  let (year, rest) ← digitsOf 0 4 chars
  let (month, rest) ← digitsOf 0 2 (← literally '-' rest)
  let (day, rest) ← digitsOf 0 2 (← literally '-' rest)
  if 1 ≤ month && month ≤ 12 && 1 ≤ day && day ≤ daysIn year month then some rest
  else none

def skipFraction : List Char → List Char
  | '.' :: c :: rest =>
    if c.isDigit then rest.dropWhile Char.isDigit else '.' :: c :: rest
  | chars => chars

def skipSeconds : List Char → Option (List Char)
  | ':' :: rest => do
    let (second, rest) ← digitsOf 0 2 rest
    if second < 60 then some (skipFraction rest) else none
  | chars => some chars

/-- Reads a time of day. -/
def skipClock (chars : List Char) : Option (List Char) := do
  let (hour, rest) ← digitsOf 0 2 chars
  let (minute, rest) ← digitsOf 0 2 (← literally ':' rest)
  if hour < 24 && minute < 60 then skipSeconds rest else none

/-- Reads an offset from universal time, if there is one. -/
def skipOffset : List Char → Option (List Char)
  | [] => some []
  | 'Z' :: rest => some rest
  | c :: rest => do
    if c ≠ '+' && c ≠ '-' then none
    let (hour, rest) ← digitsOf 0 2 rest
    let (minute, rest) ← digitsOf 0 2 (← literally ':' rest)
    if hour ≤ 24 && minute ≤ 60 then some rest else none

def timeChar (c : Char) : Char :=
  if c = 't' || c = ' ' then 'T' else if c = 'z' then 'Z' else c

/-- Whether characters in the checked spelling are a date, alone or with a time of
day. -/
def isDate (chars : List Char) : Bool :=
  match skipDate chars with
  | some [] => true
  | some ('T' :: rest) => (skipClock rest >>= skipOffset) = some []
  | _ => false

/-- Whether characters are a date, a time of day, or both. -/
def isTime (chars : List Char) : Bool :=
  let chars := chars.map timeChar
  isDate chars || skipClock chars = some []

end Toml
end WebAssembly
