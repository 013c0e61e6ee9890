/-!
# Pages

Memories are measured in pages of 64 KiB.
-/

namespace WebAssembly
namespace Page

def byteCount : Nat := 65536

/-- The largest number of pages of a memory. -/
def maxCount : UInt32 := 65536

/-- The number of bytes of the given number of pages. -/
def bytes (pages : UInt32) : UInt64 :=
  pages.toUInt64 <<< 16

/-- The size of the given number of pages in the largest binary unit that leaves a whole
number. -/
def sizeText (pages : UInt32) : String :=
  let kibi := pages.toNat * 64
  if kibi < 1024 then s!"{kibi} Ki"
  else
    let mebi := kibi / 1024
    if mebi < 1024 then s!"{mebi} Mi"
    else
      let gibi := mebi / 1024
      if gibi < 1024 then s!"{gibi} Gi" else s!"{gibi / 1024} Ti"

end Page
end WebAssembly
