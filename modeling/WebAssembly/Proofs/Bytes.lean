import Mathlib.Algebra.BigOperators.Fin
import Mathlib.Algebra.BigOperators.Intervals
import Mathlib.Tactic.Ring
import WebAssembly.Proofs.Extension

/-!
# Bytes of memories

What reading and writing runs of bytes does to single bytes, and what number a run of
bytes stands for.  A write changes the bytes that it covers and no others; the number is
the sum of the bytes, each weighted by its place.
-/

namespace WebAssembly

/-! ## Numbers as bytes -/

@[simp] theorem length_bytesOfNat (count n : Nat) :
    (bytesOfNat count n).length = count := by
  induction count generalizing n with
  | zero => rfl
  | succ count ih => rw [bytesOfNat, List.length_cons, ih]

theorem getElem?_bytesOfNat
    {count i : Nat} (n : Nat) (hi : i < count) :
    (bytesOfNat count n)[i]? = some (UInt8.ofNat (n / 256 ^ i)) := by
  induction count generalizing n i with
  | zero => omega
  | succ count ih =>
      cases i with
      | zero => simp [bytesOfNat]
      | succ i =>
          rw [bytesOfNat, List.getElem?_cons_succ, ih _ (by omega),
            Nat.div_div_eq_div_mul, pow_succ']

theorem natOfBytes_eq_sum (bytes : List UInt8) :
    natOfBytes bytes = ∑ i ∈ Finset.range bytes.length,
      (bytes.getD i 0).toNat * 256 ^ i := by
  induction bytes with
  | nil => rfl
  | cons byte rest ih =>
      rw [natOfBytes, ih, List.length_cons, Finset.sum_range_succ', Finset.mul_sum,
        Nat.add_comm]
      congr 1
      · refine Finset.sum_congr rfl fun i _ => ?_
        rw [List.getD_cons_succ, pow_succ]
        ring
      · simp

theorem natOfBytes_lt (bytes : List UInt8) : natOfBytes bytes < 256 ^ bytes.length := by
  induction bytes with
  | nil => decide
  | cons byte rest ih =>
      have hbyte := byte.toNat_lt
      rw [natOfBytes, List.length_cons, pow_succ]
      omega

theorem sum_bytesOfNat (count n : Nat) :
    ∑ i ∈ Finset.range count, (UInt8.ofNat (n / 256 ^ i)).toNat * 256 ^ i =
      n % 256 ^ count := by
  induction count with
  | zero => simp [Nat.mod_one]
  | succ count ih =>
      have hbyte : (UInt8.ofNat (n / 256 ^ count)).toNat = n / 256 ^ count % 256 :=
        UInt8.toNat_ofNat'
      rw [Finset.sum_range_succ, ih, hbyte, pow_succ, Nat.mod_mul]
      ring

/-! ## Writing -/

/-- Another array is an array in which a run of cells was overwritten, from a position
on. -/
def Overlays {α : Type} (cells : Array α) (position : Nat) (content : List α)
    (cells' : Array α) : Prop :=
  ∀ i : Nat, cells'[i]? =
    if position ≤ i ∧ i < position + content.length then content[i - position]?
    else cells[i]?

/-- One cell is overwritten, and then those behind it. -/
theorem Overlays.cons
    {α : Type} {cells cells' : Array α} {position : Nat} {a : α} {rest : List α}
    (hlt : position < cells.size)
    (h : Overlays (cells.setIfInBounds position a) (position + 1) rest cells') :
    Overlays cells position (a :: rest) cells' := by
  intro i
  rw [h i, Array.getElem?_setIfInBounds, List.length_cons]
  by_cases hi : position = i
  · subst hi
    rw [if_neg (by omega), if_pos rfl, if_pos hlt, if_pos (by omega), Nat.sub_self,
      List.getElem?_cons_zero]
  · rw [if_neg hi]
    by_cases hcovered : position + 1 ≤ i ∧ i < position + 1 + rest.length
    · rw [if_pos hcovered, if_pos (by omega)]
      obtain ⟨k, hk⟩ : ∃ k, i - position = k + 1 := ⟨i - position - 1, by omega⟩
      rw [hk, List.getElem?_cons_succ]
      congr 1
      omega
    · rw [if_neg hcovered, if_neg (by omega)]

theorem overlays_overwrite
    {bytes : Array UInt8} {position : Nat} {written : List UInt8}
    (hfit : position + written.length ≤ bytes.size) :
    Overlays bytes position written (overwrite bytes position written) := by
  induction written generalizing bytes position with
  | nil =>
      intro i
      rw [overwrite, if_neg (by simp)]
  | cons byte rest ih =>
      rw [List.length_cons] at hfit
      refine .cons (by omega) (ih ?_)
      rw [Array.size_setIfInBounds]
      omega

theorem getElem?_overwrite
    {bytes : Array UInt8} {position : Nat} {written : List UInt8}
    (hfit : position + written.length ≤ bytes.size) (i : Nat) :
    (overwrite bytes position written)[i]? =
      if position ≤ i ∧ i < position + written.length then written[i - position]?
      else bytes[i]? :=
  overlays_overwrite hfit i

namespace MemInst

variable {m : MemInst}

/-- Whether a range lies in a memory is decided on numbers as long as its end can be
counted. -/
theorem hasSize_iff
    {offset size : UInt64} (hsum : offset.toNat + size.toNat < 2 ^ 64)
    (hbytes : m.bytes.size < 2 ^ 64) :
    m.hasSize offset size = true ↔ offset.toNat + size.toNat ≤ m.bytes.size := by
  rw [hasSize, decide_eq_true_iff, UInt64.le_iff_toNat_le, UInt64.toNat_add,
    UInt64.toNat_ofNat', Nat.mod_eq_of_lt hsum, Nat.mod_eq_of_lt hbytes]

theorem toNat_address (base offset : UInt32) :
    (address base offset).toNat = base.toNat + offset.toNat := by
  have hbase := base.toNat_lt
  have hoffset := offset.toNat_lt
  rw [address, UInt64.toNat_add, UInt32.toNat_toUInt64, UInt32.toNat_toUInt64]
  omega

theorem getElem?_slice
    {offset count i : Nat} (hi : i < count) :
    (m.slice offset count)[i]? = m.bytes[offset + i]? := by
  rw [slice, Array.getElem?_toList, Array.getElem?_extract]
  by_cases hsize : offset + i < m.bytes.size
  · rw [if_pos (by omega)]
  · rw [if_neg (by omega), Array.getElem?_eq_none (by omega)]

theorem length_slice
    {offset count : Nat} (hfit : offset + count ≤ m.bytes.size) :
    (m.slice offset count).length = count := by
  rw [slice, Array.length_toList, Array.size_extract]
  omega

end MemInst
end WebAssembly
