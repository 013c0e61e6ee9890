import WebAssembly.Text.Hex
import WebAssembly.Text.Printable

/-!
# Quoted text

A name in a message stands in double quotes.  Printable characters stand for themselves;
the quote and the backslash are escaped, and other characters are written by a letter or
by number.
-/

namespace WebAssembly
namespace Text

/-- The letter that stands for a control character behind a backslash, if it has one. -/
def escapeLetter? (c : Char) : Option Char :=
  match c.toNat with
  | 0x07 => some 'a'
  | 0x08 => some 'b'
  | 0x09 => some 't'
  | 0x0a => some 'n'
  | 0x0b => some 'v'
  | 0x0c => some 'f'
  | 0x0d => some 'r'
  | _ => none

def quotedChar (c : Char) : String :=
  if c = '"' || c = '\\' then String.ofList ['\\', c]
  else if isPrintable c then String.singleton c
  else
    match escapeLetter? c with
    | some letter => String.ofList ['\\', letter]
    | none =>
      if c.toNat < 0x20 || c.toNat = 0x7f then "\\x" ++ hexPadded 2 c.toNat
      else if c.toNat < 0x10000 then "\\u" ++ hexPadded 4 c.toNat
      else "\\U" ++ hexPadded 8 c.toNat

def quoted (s : String) : String :=
  "\"" ++ String.join (s.toList.map quotedChar) ++ "\""

end Text
end WebAssembly
