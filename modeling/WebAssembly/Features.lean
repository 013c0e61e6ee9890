import WebAssembly.Text.Quoted

/-!
# Features

The extensions of the language that can be switched on, as a set of bits.
-/

namespace WebAssembly

/-- A set of features; a bit without a name counts as a feature too. -/
structure Features where
  bits : UInt64
  deriving DecidableEq, Repr, Inhabited

namespace Features

def none : Features := ⟨0⟩

/-- Sign extensions within one integer type. -/
def signExtension : Features := ⟨1⟩

/-- More than one result in function and block types, and parameters of blocks. -/
def multiValue : Features := ⟨2⟩

/-- The set with the given features added or removed. -/
def set (features change : Features) (on : Bool) : Features :=
  if on then ⟨features.bits ||| change.bits⟩ else ⟨features.bits &&& ~~~change.bits⟩

def has (features wanted : Features) : Bool :=
  features.bits &&& wanted.bits != 0

/-- The names of the features in the set, from the lowest bit up; bits without a name
are left out. -/
def names (features : Features) : List String :=
  [(signExtension, "sign-extension-ops"), (multiValue, "multi-value")].filterMap
    fun (feature, name) =>
    if features.has feature then some name else Option.none

/-- The names of the features, separated by bars. -/
def text (features : Features) : String :=
  String.intercalate "|" features.names

/-- What is said of wanted features when the set has none of them. -/
def disabledText (wanted : Features) : String :=
  s!"feature {Text.quoted wanted.text} is disabled"

end Features
end WebAssembly
