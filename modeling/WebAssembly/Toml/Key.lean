import WebAssembly.Text.Hex

/-!
# Keys of documents

A key is a path of names.  A name that holds only letters, digits, underscores and
dashes is written bare, and any other one in quotes.
-/

namespace WebAssembly
namespace Toml

/-- A path of names. -/
abbrev Key := List String

/-- Whether a character may stand in a bare name. -/
def isBareChar (c : Char) : Bool :=
  c.isAlphanum || c = '_' || c = '-'

def quotedNameChar (c : Char) : String :=
  if c = '"' then "\\\""
  else if c = '\\' then "\\\\"
  else if c = '\x08' then "\\b"
  else if c = '\t' then "\\t"
  else if c = '\n' then "\\n"
  else if c = '\x0c' then "\\f"
  else if c = '\r' then "\\r"
  else if c.toNat < 0x20 || c.toNat = 0x7f then "\\u" ++ Text.hexPadded 4 c.toNat
  else c.toString

def nameText (name : String) : String :=
  if name ≠ "" && name.toList.all isBareChar then name
  else "\"" ++ String.join (name.toList.map quotedNameChar) ++ "\""

/-- The names of a key, separated by points. -/
def Key.text (key : Key) : String :=
  String.intercalate "." (key.map nameText)

end Toml
end WebAssembly
