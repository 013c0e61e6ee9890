/-!
# Hexadecimal text

Numbers in messages and names are written with lower-case hexadecimal digits.
-/

namespace WebAssembly
namespace Text

/-- The hexadecimal digits of a number, without padding; zero is `0`. -/
def hex (n : Nat) : String :=
  String.ofList (Nat.toDigits 16 n)

/-- The hexadecimal digits of a number, with zeros on the left up to the given width. -/
def hexPadded (width n : Nat) : String :=
  let digits := Nat.toDigits 16 n
  String.ofList (List.replicate (width - digits.length) '0' ++ digits)

/-- A number behind the mark `0x`, without padding. -/
def hexMarked (n : Nat) : String :=
  "0x" ++ hex n

end Text
end WebAssembly
