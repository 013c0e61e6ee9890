/-!
# Indexes

Indexes are 32-bit words, and so is the number of entries that an index is compared
with: a list that is longer than an index can tell is counted modulo `2 ^ 32`.
-/

namespace WebAssembly
namespace Index

variable {α : Type}

/-- The number of entries of a list as an index counts them. -/
def count (entries : List α) : UInt32 :=
  UInt32.ofNat entries.length

/-- The entry at an index that lies below the number of entries. -/
def lookup (entries : List α) (index : UInt32) : Option α :=
  if index < count entries then entries[index.toNat]? else none

variable {entries : List α} {index : UInt32}

theorem lt_ofNat_iff {n : Nat} :
    index < UInt32.ofNat n ↔ index.toNat < n % UInt32.size :=
  UInt32.lt_iff_toNat_lt

theorem toNat_lt_of_lt_ofNat {n : Nat} (h : index < UInt32.ofNat n) : index.toNat < n :=
  Nat.lt_of_lt_of_le (lt_ofNat_iff.mp h) (Nat.mod_le _ _)

theorem lookup_eq_some_iff {a : α} :
    lookup entries index = some a ↔
      index.toNat < entries.length % UInt32.size ∧ entries[index.toNat]? = some a := by
  rw [lookup, ← lt_ofNat_iff, count]
  split <;> simp [*]

theorem getElem?_of_lookup {a : α} (h : lookup entries index = some a) :
    entries[index.toNat]? = some a :=
  (lookup_eq_some_iff.mp h).2

end Index
end WebAssembly
