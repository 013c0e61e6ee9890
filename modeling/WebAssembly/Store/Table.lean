import WebAssembly.Type

/-!
# Tables

A table is an array of slots, each empty or holding the address of a function.
-/

namespace WebAssembly

/-- A table in a store. -/
structure TableInst where
  slots : Array (Option UInt32)
  /-- The byte of the element type. -/
  element : UInt8
  /-- The limits with which the table was declared. -/
  limits : Limits
  deriving DecidableEq, Repr, Inhabited

namespace TableInst

/-- A table of empty slots with the declared minimum of slots. -/
def new (element : UInt8) (limits : Limits) : TableInst where
  slots := Array.replicate limits.min.toNat none
  element := element
  limits := limits

def size (t : TableInst) : UInt32 :=
  UInt32.ofNat t.slots.size

/-- The table with empty slots added, unless that exceeds its maximum. -/
def grow? (t : TableInst) (delta : UInt32) : Option TableInst :=
  let bound := (t.limits.max.getD 0xffffffff).toNat
  if t.size.toNat + delta.toNat ≤ bound then
    some { t with slots := t.slots ++ Array.replicate delta.toNat none }
  else none

end TableInst
end WebAssembly
