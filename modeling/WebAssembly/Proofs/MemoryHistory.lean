import WebAssembly.Proofs.IndexSpaces
import WebAssembly.Proofs.MemoryAccess

/-!
# Memories as byte maps

A memory behaves as a map from positions to bytes together with a number of pages.  The
map is zero at first and changes only where it is written; growth adds pages and changes
no byte.  Whoever reads, writes, grows or measures the memory, from outside or by an
instruction, gets the answer that the map gives.
-/

namespace WebAssembly

/-! ## Byte maps -/

/-- A map from positions to bytes, with the pages that it has and the pages that it may
have. -/
structure ByteMap where
  pages : Nat
  limit : Nat
  byte : Nat → UInt8

namespace ByteMap

/-- The map that nothing was written to. -/
def zero (pages limit : Nat) : ByteMap where
  pages := pages
  limit := limit
  byte := fun _ => 0

variable (b : ByteMap)

/-- The range lies in the pages of the map. -/
def Fits (offset count : Nat) : Prop :=
  offset + count ≤ 65536 * b.pages

instance (offset count : Nat) : Decidable (b.Fits offset count) :=
  inferInstanceAs (Decidable (_ ≤ _))

/-- The map has room for more pages. -/
def CanGrow (delta : Nat) : Prop :=
  b.pages + delta ≤ b.limit

instance (delta : Nat) : Decidable (b.CanGrow delta) :=
  inferInstanceAs (Decidable (_ ≤ _))

def read (offset count : Nat) : List UInt8 :=
  (List.range count).map fun i => b.byte (offset + i)

def write (offset : Nat) (bytes : List UInt8) : ByteMap :=
  { b with
    byte := fun i =>
      if offset ≤ i ∧ i < offset + bytes.length then bytes[i - offset]?.getD 0
      else b.byte i }

@[simp] theorem byte_write (offset : Nat) (bytes : List UInt8) (i : Nat) :
    (b.write offset bytes).byte i =
      if offset ≤ i ∧ i < offset + bytes.length then bytes[i - offset]?.getD 0
      else b.byte i :=
  rfl

/-- The map with more pages. -/
def grow (delta : Nat) : ByteMap :=
  { b with pages := b.pages + delta }

end ByteMap

/-! ## Memories that refine a map -/

/-- The memory has the pages, the cap and the bytes of the map.  Beyond its pages the
map is zero. -/
structure MemInst.Refines (m : MemInst) (b : ByteMap) : Prop where
  size : m.bytes.size = 65536 * b.pages
  cap : m.cap.toNat = b.limit
  pages_le : b.pages ≤ b.limit
  limit_le : b.limit ≤ 65536
  byte : ∀ i, b.byte i = m.bytes[i]?.getD 0

namespace MemInst.Refines

variable {m : MemInst} {b : ByteMap}

theorem toNat_ofNat_pages
    (h : m.Refines b) : (UInt32.ofNat b.pages).toNat = b.pages := by
  have hpages := h.pages_le
  have hlimit := h.limit_le
  rw [UInt32.toNat_ofNat', Nat.mod_eq_of_lt (by omega)]

theorem pages_eq
    (h : m.Refines b) : m.pages = UInt32.ofNat b.pages :=
  MemInst.pages_eq (by rw [h.size, h.toNat_ofNat_pages])

theorem size_lt
    (h : m.Refines b) : m.bytes.size < 2 ^ 33 := by
  have hsize := h.size
  have hpages := h.pages_le
  have hlimit := h.limit_le
  omega

theorem hasSize_iff_fits
    (h : m.Refines b) (offset : UInt32) {count : UInt64}
    (hcount : count.toNat < 2 ^ 63) :
    m.hasSize offset.toUInt64 count = true ↔ b.Fits offset.toNat count.toNat := by
  have hoffset := offset.toNat_lt
  have hsize := h.size_lt
  rw [hasSize_iff (by rw [UInt32.toNat_toUInt64]; omega) (by omega),
    UInt32.toNat_toUInt64, ByteMap.Fits, h.size]

theorem read?_eq
    (h : m.Refines b) (offset count : UInt32) :
    m.read? offset count =
      if b.Fits offset.toNat count.toNat then some (b.read offset.toNat count.toNat)
      else none := by
  have hcount : count.toUInt64.toNat < 2 ^ 63 := by
    have := count.toNat_lt
    rw [UInt32.toNat_toUInt64]
    omega
  have hhas := h.hasSize_iff_fits offset hcount
  rw [UInt32.toNat_toUInt64] at hhas
  by_cases hfit : b.Fits offset.toNat count.toNat
  · have hend : offset.toNat + count.toNat ≤ m.bytes.size := h.size ▸ hfit
    rw [if_pos hfit, read?, if_pos (hhas.mpr hfit), Option.some_inj]
    refine List.ext_getElem? fun i => ?_
    by_cases hi : i < count.toNat
    · rw [getElem?_slice hi, ByteMap.read, List.getElem?_map, List.getElem?_range hi,
        Option.map_some, h.byte, Array.getElem?_eq_getElem (by omega), Option.getD_some]
    · rw [List.getElem?_eq_none (by rw [length_slice hend]; omega), ByteMap.read,
        List.getElem?_eq_none (by simp; omega)]
  · rw [if_neg hfit, read?, if_neg fun htrue => hfit (hhas.mp htrue)]

theorem hasSize_length_iff_fits
    (h : m.Refines b) (offset : UInt32) {bytes : List UInt8}
    (hlength : bytes.length < 2 ^ 63) :
    m.hasSize offset.toUInt64 (UInt64.ofNat bytes.length) = true ↔
      b.Fits offset.toNat bytes.length := by
  have hcount : (UInt64.ofNat bytes.length).toNat = bytes.length := by
    rw [UInt64.toNat_ofNat', Nat.mod_eq_of_lt (by omega)]
  have hhas := h.hasSize_iff_fits offset (hcount ▸ hlength)
  rwa [hcount] at hhas

theorem write?_of_fits
    (h : m.Refines b) {offset : UInt32} {bytes : List UInt8}
    (hlength : bytes.length < 2 ^ 63) (hfit : b.Fits offset.toNat bytes.length) :
    ∃ m', m.write? offset bytes = some m' ∧
      m'.Refines (b.write offset.toNat bytes) := by
  have hend : offset.toNat + bytes.length ≤ m.bytes.size := h.size ▸ hfit
  refine ⟨_, if_pos ((h.hasSize_length_iff_fits offset hlength).mpr hfit), ?_⟩
  refine ⟨(size_overwrite _ _ _).trans h.size, h.cap, h.pages_le, h.limit_le,
    fun i => ?_⟩
  rw [splice, getElem?_overwrite hend, ByteMap.byte_write]
  by_cases hcovered : offset.toNat ≤ i ∧ i < offset.toNat + bytes.length
  · rw [if_pos hcovered, if_pos hcovered]
  · rw [if_neg hcovered, if_neg hcovered, h.byte]

theorem write?_of_not_fits
    (h : m.Refines b) {offset : UInt32} {bytes : List UInt8}
    (hlength : bytes.length < 2 ^ 63) (hfit : ¬b.Fits offset.toNat bytes.length) :
    m.write? offset bytes = none :=
  if_neg fun htrue => hfit ((h.hasSize_length_iff_fits offset hlength).mp htrue)

theorem canGrow_iff
    (h : m.Refines b) (delta : UInt32) :
    m.pages.toNat + delta.toNat ≤ m.cap.toNat ↔ b.CanGrow delta.toNat := by
  rw [h.pages_eq, h.toNat_ofNat_pages, h.cap, ByteMap.CanGrow]

theorem grow?_of_canGrow
    (h : m.Refines b) {delta : UInt32} (hroom : b.CanGrow delta.toNat) :
    ∃ m', m.grow? delta = some m' ∧ m'.Refines (b.grow delta.toNat) := by
  refine ⟨_, if_pos ((h.canGrow_iff delta).mpr hroom), ?_, h.cap, hroom, h.limit_le,
    fun i => ?_⟩
  · rw [Array.size_append, Array.size_replicate, Page.toNat_bytes, h.size, ByteMap.grow,
      Nat.mul_add]
  · -- A new position holds zero, and so does the map, which was never written there.
    rw [Array.getElem?_append, ByteMap.grow, h.byte]
    by_cases hi : i < m.bytes.size
    · rw [if_pos hi]
    · rw [if_neg hi, Array.getElem?_eq_none (by omega), Array.getElem?_replicate]
      split
      · rfl
      · rfl

theorem grow?_of_not_canGrow
    (h : m.Refines b) {delta : UInt32} (hroom : ¬b.CanGrow delta.toNat) :
    m.grow? delta = none :=
  if_neg fun hle => hroom ((h.canGrow_iff delta).mp hle)

end MemInst.Refines

/-- A memory that was just defined refines the map that nothing was written to. -/
theorem MemInst.WellFormed.refines_zero
    {m : MemInst} {storeCap : UInt32} {limits : Limits} (h : m.WellFormed)
    (hdefines : Module.DefinesMemory storeCap (some limits) m) :
    m.Refines (.zero limits.min.toNat (Page.limit limits storeCap)) := by
  obtain ⟨_, ⟨⟩, -, hcap, hsize, hzero⟩ := hdefines
  have hpages := UInt32.le_iff_toNat_le.mp h.le_cap
  rw [MemInst.pages_eq hsize, hcap] at hpages
  refine ⟨hsize, hcap, hpages, hcap ▸ UInt32.le_iff_toNat_le.mp h.cap_le, fun i => ?_⟩
  cases hbyte : m.bytes[i]? with
  | none => rfl
  | some byte => exact (hzero byte (Array.mem_of_getElem? hbyte)).symm

/-- A well-formed memory refines the map of its bytes. -/
theorem MemInst.WellFormed.refines
    {m : MemInst} (h : m.WellFormed) :
    m.Refines { pages := m.pages.toNat, limit := m.cap.toNat,
                byte := fun i => m.bytes[i]?.getD 0 } where
  size := h.size
  cap := rfl
  pages_le := UInt32.le_iff_toNat_le.mp h.le_cap
  limit_le := UInt32.le_iff_toNat_le.mp h.cap_le
  byte := fun _ => rfl

/-! ## Limits that are never exceeded -/

namespace Store

variable {law : ValueLaw} {guarded total : Prop} {s s' : Store} {cap : UInt32}

/-- The store allows its memories a number of pages, and each of them has the limit that
follows from this number and from its declared limits. -/
structure Capped (cap : UInt32) (s : Store) : Prop where
  store : s.memoryCap = cap
  memories : ∀ m ∈ s.memories, m.cap.toNat = Page.limit m.limits cap

theorem Capped.setMemory
    {addr : UInt32} {m m' : MemInst} (hs : s.Capped cap) (hm : s.memory addr = .ok m)
    (hbecomes : m.Becomes m') :
    (s.setMemory addr m').Capped cap where
  store := hs.store
  memories := by
    intro found hfound
    rcases Array.mem_or_eq_of_mem_setIfInBounds hfound with hold | rfl
    · exact hs.memories found hold
    · rw [hbecomes.1, hbecomes.2.1]
      exact hs.memories m (Array.mem_of_getElem? (lookup_eq_ok_iff.mp hm))

theorem Change.capped
    (h : Change law guarded total s s') (hs : s.Capped cap) : s'.Capped cap := by
  cases h with
  | assign | refill | growTable | addFunction => exact ⟨hs.store, hs.memories⟩
  | splice hmemory => exact hs.setMemory hmemory (MemInst.becomes_splice _ _ _)
  | growMemory hmemory hgrow =>
      exact hs.setMemory hmemory (MemInst.becomes_of_grow? hgrow)
  | addTable halloc =>
      obtain ⟨_, _, -, -, -, rfl⟩ := allocTable_eq_ok halloc
      exact ⟨hs.store, hs.memories⟩
  | addMemory halloc =>
      obtain ⟨limits, -, rfl⟩ := allocMemory_eq_ok halloc
      refine ⟨hs.store, fun m hm => ?_⟩
      rcases Array.mem_push.mp hm with hold | rfl
      · exact hs.memories m hold
      · exact hs.store ▸ MemInst.cap_new limits s.memoryCap
  | addGlobal halloc =>
      obtain ⟨_, -, -, rfl⟩ := allocGlobal_eq_ok halloc
      exact ⟨hs.store, hs.memories⟩
  | link _ _ _ halloc =>
      obtain ⟨added, hadded, rfl⟩ := exists_allocation halloc
      refine ⟨hs.store, fun m hm => ?_⟩
      rcases mem_append_list.mp hm with hold | hnew
      · exact hs.memories m hold
      · obtain ⟨_, -, limits, -, rfl, hcap, -⟩ :=
          exists_of_mem_right hadded.definesMemories hnew
        exact hs.store ▸ hcap

theorem Evolves.capped
    (h : Evolves law guarded total s s') (hs : s.Capped cap) : s'.Capped cap :=
  h.induct (Q := fun _ => True) (fun _ _ _ => id)
    (fun _ _ _ hchange => hchange.capped) trivial hs

end Store

namespace Session

variable {law : ValueLaw} {total : Prop} {s s' : Session}

/-- In a reachable session every memory has the limit that its declared limits and the
store allow, and the store goes on to allow the same. -/
theorem Reachable.capped
    (h : s.Reachable law total) (hleads : s.Leads law total s') :
    s'.store.Capped s.store.memoryCap := by
  have hlawful := h.lawful
  obtain ⟨store, hnew, hfirst⟩ := h
  have hs : s.store.Capped store.memoryCap :=
    (hfirst.evolves hnew.lawful).capped ⟨rfl, by simp [hnew.memories]⟩
  exact hs.store ▸ (hleads.evolves hlawful).capped hs

end Session

/-- Every memory of a store that admits a module and allocates it begins as a map that
nothing was written to. -/
theorem Store.Admits.refines_zero
    {s allocated : Store} {m : Module} {name : String} {externs : List ExternVal}
    {imports : List ExternType} {inst : ModuleInst}
    (h : s.Admits m name externs imports allocated inst) :
    ∃ memories : List MemInst, allocated.memories = s.memories ++ memories ∧
      List.Forall₂ (fun entry memory => ∃ limits, entry = some limits ∧
        memory.Refines (.zero limits.min.toNat (Page.limit limits s.memoryCap)))
          m.memories memories := by
  obtain ⟨added, hadded, rfl⟩ := exists_allocation h.allocate
  refine ⟨added.memories, rfl, ?_⟩
  have hwf := hadded.wellFormed_memories h.memories
  have hpaired := (List.forall₂_and_left added.memories m.memories).mpr ⟨hwf,
    hadded.definesMemories.flip⟩
  refine (hpaired.imp ?_).flip
  rintro memory entry ⟨hmemory, limits, rfl, hfields⟩
  exact ⟨limits, rfl, hmemory.refines_zero ⟨limits, rfl, hfields⟩⟩

/-! ## Uses of a memory -/

/-- A use of a memory, from outside or by an instruction. -/
inductive MemoryUse
  | write (offset : UInt32) (bytes : List UInt8)
  | read (offset count : UInt32)
  | grow (delta : UInt32)
  | size
  | growInstr (delta : UInt32)
  | sizeInstr

/-- What a use gives back: a response, or the value that an instruction pushes. -/
inductive MemoryReply
  | response (response : Response)
  | pushed (v : Val)

namespace MemoryUse

def command? (memory : UInt32) : MemoryUse → Option Command
  | .write offset bytes => some (.memoryWrite memory offset bytes)
  | .read offset count => some (.memoryRead memory offset count)
  | .grow delta => some (.memoryGrow memory delta)
  | .size => some (.memorySize memory)
  | .growInstr _ | .sizeInstr => none

/-- The number of bytes that are written is a signed word of 64 bits. -/
def IsCountable : MemoryUse → Prop
  | .write _ bytes => bytes.length < 2 ^ 63
  | _ => True

/-- The use is an instruction, whose operands lie above the rest of the stack. -/
inductive IsInstr : MemoryUse → Instr → Stack → Stack → Prop
  | grow {delta : Val} {rest : Stack} (h : delta.type = .i32) :
    IsInstr (.growInstr delta.u32) .memoryGrow (.value delta :: rest) rest
  | size {rest : Stack} : IsInstr .sizeInstr .memorySize rest rest

end MemoryUse

namespace ByteMap

/-- What the map gives back when the memory at the address is used. -/
def reply (b : ByteMap) (memory : UInt32) : MemoryUse → MemoryReply
  | .write offset bytes =>
    .response (if b.Fits offset.toNat bytes.length then .done
      else .failed (.access (.write bytes.length offset memory (65536 * b.pages))))
  | .read offset count =>
    .response (if b.Fits offset.toNat count.toNat then
      .bytes (b.read offset.toNat count.toNat)
      else .failed (.access (.read count offset memory (65536 * b.pages))))
  | .grow delta =>
    .response (.grown (if b.CanGrow delta.toNat then some (UInt32.ofNat b.pages)
      else none))
  | .size => .response (.size (UInt32.ofNat b.pages))
  | .growInstr delta =>
    .pushed (.ofU32 (if b.CanGrow delta.toNat then UInt32.ofNat b.pages
      else 0xffffffff))
  | .sizeInstr => .pushed (.ofU32 (UInt32.ofNat b.pages))

/-- The map after a use. -/
def next (b : ByteMap) : MemoryUse → ByteMap
  | .write offset bytes =>
    if b.Fits offset.toNat bytes.length then b.write offset.toNat bytes else b
  | .grow delta | .growInstr delta =>
    if b.CanGrow delta.toNat then b.grow delta.toNat else b
  | .read _ _ | .size | .sizeInstr => b

end ByteMap

/-- The memory at the address refines the map. -/
def Store.Records (s : Store) (memory : UInt32) (b : ByteMap) : Prop :=
  ∃ m, s.memory memory = .ok m ∧ m.Refines b

theorem Store.Records.set
    {s : Store} {memory : UInt32} {b b' : ByteMap} {m : MemInst}
    (h : s.Records memory b) (hm : m.Refines b') :
    (s.setMemory memory m).Records memory b' := by
  obtain ⟨_, hmemory, -⟩ := h
  exact ⟨m, memory_setMemory hmemory m, hm⟩

/-- Another memory is not concerned. -/
theorem Store.Records.set_other
    {s : Store} {memory other : UInt32} {b : ByteMap} (h : s.Records memory b)
    (hother : other ≠ memory) (m : MemInst) :
    (s.setMemory other m).Records memory b := by
  obtain ⟨m', hmemory, hm'⟩ := h
  refine ⟨m', lookup_eq_ok_iff.mpr ?_, hm'⟩
  rw [setMemory, Array.getElem?_setIfInBounds_ne fun heq =>
    hother (UInt32.toNat_inj.mp heq)]
  exact lookup_eq_ok_iff.mp hmemory

theorem Store.setMemory_self
    {s : Store} {addr : UInt32} {m : MemInst} (h : s.memory addr = .ok m) :
    s.setMemory addr m = s := by
  obtain ⟨hlt, rfl⟩ := Array.getElem?_eq_some_iff.mp (lookup_eq_ok_iff.mp h)
  rw [setMemory, Array.setIfInBounds, dif_pos hlt, Array.set_getElem_self]

/-- What a memory gives to an instruction that uses it, and the memory after. -/
def MemInst.serve (m : MemInst) : MemoryUse → Val × MemInst
  | .growInstr delta =>
    match m.grow? delta with
    | some grown => (.ofU32 m.pages, grown)
    | none => (.ofU32 0xffffffff, m)
  | _ => (.ofU32 m.pages, m)

theorem MemInst.Refines.serve
    {m : MemInst} {b : ByteMap} {use : MemoryUse} {instr : Instr} {before rest : Stack}
    (h : m.Refines b) (memory : UInt32) (hinstr : use.IsInstr instr before rest) :
    .pushed (m.serve use).1 = b.reply memory use ∧
      (m.serve use).2.Refines (b.next use) := by
  cases hinstr with
  | @grow delta _ _ =>
      rw [MemInst.serve, ByteMap.reply, ByteMap.next]
      by_cases hroom : b.CanGrow delta.u32.toNat
      · obtain ⟨grown, hgrow, hgrown⟩ := h.grow?_of_canGrow hroom
        rw [hgrow, if_pos hroom, if_pos hroom, h.pages_eq]
        exact ⟨rfl, hgrown⟩
      · rw [h.grow?_of_not_canGrow hroom, if_neg hroom, if_neg hroom]
        exact ⟨rfl, h⟩
  | size =>
      rw [MemInst.serve, ByteMap.reply, ByteMap.next, h.pages_eq]
      · exact ⟨rfl, h⟩
      · exact fun _ => MemoryUse.noConfusion

namespace Exec

variable {module addr : UInt32} {m : MemInst} {r : Run} {below : Stack} {delta : Val}

theorem transfer_memorySize
    (hmemory : r.session.store.HasMemory module addr m) :
    transfer module .memorySize r = .ok .next { r with
      stack := .value (.ofU32 m.pages) :: r.stack } := by
  have hplain : plain module .memorySize r = .ok () { r with
      stack := .value (.ofU32 m.pages) :: r.stack } :=
    memory_bind hmemory _
  exact bind_eq_of_eq_ok hplain

theorem transfer_memoryGrow
    (hmemory : r.session.store.HasMemory module addr m)
    (hstack : r.stack = .value delta :: below) (hdelta : delta.type = .i32) :
    transfer module .memoryGrow r =
      match m.grow? delta.u32 with
      | some grown =>
        .ok .next { r with
          session := r.session.withStore (r.session.store.setMemory addr grown)
          stack := .value (.ofU32 m.pages) :: below }
      | none => .ok .next { r with stack := .value (.ofU32 0xffffffff) :: below } := by
  have hplain : plain module .memoryGrow r =
      match m.grow? delta.u32 with
      | some grown =>
        .ok () { r with
          session := r.session.withStore (r.session.store.setMemory addr grown)
          stack := .value (.ofU32 m.pages) :: below }
      | none => .ok () { r with stack := .value (.ofU32 0xffffffff) :: below } := by
    have hbelow : { r with stack := below }.session.store.HasMemory module addr m :=
      hmemory
    refine (bind_eq_of_eq_ok (popU32_eq_ok hstack hdelta)).trans
      ((memory_bind hbelow _).trans ?_)
    cases m.grow? delta.u32 <;> rfl
  cases hgrow : m.grow? delta.u32 with
  | some grown =>
      rw [hgrow] at hplain
      exact bind_eq_of_eq_ok hplain
  | none =>
      rw [hgrow] at hplain
      exact bind_eq_of_eq_ok hplain

end Exec

namespace Engine

open Exec

/-- An instruction that uses a memory is executed in a module instance that has this
memory. -/
structure Occurs (memory : UInt32) (use : MemoryUse) (setting : Setting)
    (module : UInt32) (instr : Instr) (r : Run) (rest : Stack) : Prop where
  hasMemory : ∃ m, r.session.store.HasMemory module memory m
  isInstr : use.IsInstr instr r.stack rest
  dispatches : ∃ r', Dispatches setting instr r r'

end Engine

namespace Session

open Engine

/-- The memory at an address is used in a session, with what is given back and the
session after. -/
inductive Uses (memory : UInt32) : Session → MemoryUse → MemoryReply → Session → Prop
  | command {s use command} (fuel : Nat) (h : use.command? memory = some command)
    (hcountable : use.IsCountable) :
    Uses memory s use (.response (s.step (fuel + 1) command).1)
      (s.step (fuel + 1) command).2
  | instruction {fuel use setting module instr r rest r' v}
    (h : Occurs memory use setting module instr r rest)
    (hexec : exec (fuel + 1) setting module instr r = .ok .next r')
      (hpushed : r'.stack = .value v :: rest) :
    Uses memory r.session use (.pushed v) r'.session

/-- Uses of memories one after the other, each with its address and what it gave
back. -/
inductive Trail : Session → List (UInt32 × MemoryUse × MemoryReply) → Session → Prop
  | nil {s} : Trail s [] s
  | cons {s memory use reply s' rest s''} (h : Uses memory s use reply s')
    (hrest : Trail s' rest s'') :
    Trail s ((memory, use, reply) :: rest) s''

end Session

namespace ByteMap

/-- What was given back for the memory at the address is what the map gives back. -/
def Explains (memory : UInt32) :
    ByteMap → List (UInt32 × MemoryUse × MemoryReply) → Prop
  | _, [] => True
  | b, (addr, use, reply) :: rest =>
    if addr = memory then reply = b.reply memory use ∧ (b.next use).Explains memory rest
    else b.Explains memory rest

/-- The map after the uses of the memory at the address. -/
def after (memory : UInt32) :
    ByteMap → List (UInt32 × MemoryUse × MemoryReply) → ByteMap
  | b, [] => b
  | b, (addr, use, _) :: rest =>
    if addr = memory then (b.next use).after memory rest else b.after memory rest

end ByteMap

namespace Session

open Engine

variable {s s' : Session} {memory : UInt32} {b : ByteMap}

/-! ### Commands -/

section Answered

variable {command : Command}
  (hrequest : Operation.request .background command = Request.answer <$>
    Operation.answer command)
include hrequest

/-- A command that asks for no invocation is only answered. -/
theorem perform_eq_answer (fuel : Nat) :
    perform (fuel + 1) .background command = Operation.answer command := by
  rw [perform_succ, hrequest]
  simp only [bind_map_left, respond, bind_pure]

theorem step_of_answer
    {response : Response} (h : Operation.answer command s = .ok response s')
    (fuel : Nat) :
    s.step (fuel + 1) command = (response, s') := by
  rw [step, perform_eq_answer hrequest, h]

theorem step_of_refusal
    {error : Error} (h : Operation.answer command s = .error error s') (fuel : Nat) :
    s.step (fuel + 1) command = (.failed error, s') := by
  rw [step, perform_eq_answer hrequest, h]

theorem records_step_of_answer
    (h : Ends (Operation.answer command) s (fun _ s' => s'.store.Records memory b)
      fun _ s' => s'.store.Records memory b) (fuel : Nat) :
    (s.step (fuel + 1) command).2.store.Records memory b := by
  refine step_of_ends (P := fun s' => s'.store.Records memory b) ?_
  rwa [perform_eq_answer hrequest]

end Answered

theorem step_write
    (h : s.store.Records memory b) {offset : UInt32} {bytes : List UInt8}
    (hlength : bytes.length < 2 ^ 63) (fuel : Nat) :
    ∃ response s', s.step (fuel + 1) (.memoryWrite memory offset bytes) =
        (response, s') ∧
      .response response = b.reply memory (.write offset bytes) ∧
      s'.store.Records memory (b.next (.write offset bytes)) := by
  obtain ⟨m, hmemory, hm⟩ := id h
  by_cases hfit : b.Fits offset.toNat bytes.length
  · obtain ⟨m', hwrite, hm'⟩ := hm.write?_of_fits hlength hfit
    have hstore : s.store.memoryWrite memory offset bytes =
        .ok (s.store.setMemory memory m') := by
      simp only [Store.memoryWrite, hmemory, hwrite, bind, Except.bind, pure,
        Except.pure]
    have hanswer : Operation.answer (.memoryWrite memory offset bytes) s =
        .ok .done (s.withStore (s.store.setMemory memory m')) := by
      refine bind_eq_of_eq_ok (a := ()) ?_
      rw [Operation.write, hstore]
    refine ⟨_, _, step_of_answer rfl hanswer fuel, ?_, ?_⟩
    · rw [ByteMap.reply, if_pos hfit]
    · rw [ByteMap.next, if_pos hfit]
      exact h.set hm'
  · have hstore : s.store.memoryWrite memory offset bytes =
        .error (.write bytes.length offset memory (65536 * b.pages)) := by
      simp only [Store.memoryWrite, hmemory, hm.write?_of_not_fits hlength hfit, bind,
        Except.bind, hm.size]
      rfl
    have hanswer : Operation.answer (.memoryWrite memory offset bytes) s =
        .error (.access (.write bytes.length offset memory (65536 * b.pages))) s := by
      refine bind_eq_of_eq_error ?_
      rw [Operation.write, hstore]
    refine ⟨_, _, step_of_refusal rfl hanswer fuel, ?_, ?_⟩
    · rw [ByteMap.reply, if_neg hfit]
    · rw [ByteMap.next, if_neg hfit]
      exact h

theorem step_read
    (h : s.store.Records memory b) (offset count : UInt32) (fuel : Nat) :
    ∃ response, s.step (fuel + 1) (.memoryRead memory offset count) = (response, s) ∧
      .response response = b.reply memory (.read offset count) := by
  obtain ⟨m, hmemory, hm⟩ := h
  by_cases hfit : b.Fits offset.toNat count.toNat
  · have hstore : s.store.memoryRead memory offset count =
        .ok (b.read offset.toNat count.toNat) := by
      simp only [Store.memoryRead, hmemory, hm.read?_eq, if_pos hfit, bind, Except.bind,
        pure, Except.pure]
    have hanswer : Operation.answer (.memoryRead memory offset count) s =
        .ok (.bytes (b.read offset.toNat count.toNat)) s := by
      simp only [Operation.answer, Functor.map, EStateM.map, Operation.read, hstore]
    refine ⟨_, step_of_answer rfl hanswer fuel, ?_⟩
    rw [ByteMap.reply, if_pos hfit]
  · have hstore : s.store.memoryRead memory offset count =
        .error (.read count offset memory (65536 * b.pages)) := by
      simp only [Store.memoryRead, hmemory, hm.read?_eq, if_neg hfit, bind,
        Except.bind, hm.size]
      rfl
    have hanswer : Operation.answer (.memoryRead memory offset count) s =
        .error (.access (.read count offset memory (65536 * b.pages))) s := by
      simp only [Operation.answer, Functor.map, EStateM.map, Operation.read, hstore]
    refine ⟨_, step_of_refusal rfl hanswer fuel, ?_⟩
    rw [ByteMap.reply, if_neg hfit]

theorem step_grow
    (h : s.store.Records memory b) (delta : UInt32) (fuel : Nat) :
    ∃ response s', s.step (fuel + 1) (.memoryGrow memory delta) = (response, s') ∧
      .response response = b.reply memory (.grow delta) ∧
      s'.store.Records memory (b.next (.grow delta)) := by
  obtain ⟨m, hmemory, hm⟩ := id h
  by_cases hroom : b.CanGrow delta.toNat
  · obtain ⟨m', hgrow, hm'⟩ := hm.grow?_of_canGrow hroom
    have hstore : s.store.memoryGrow memory delta =
        .ok (some (UInt32.ofNat b.pages, s.store.setMemory memory m')) := by
      simp only [Store.memoryGrow, hmemory, hgrow, hm.pages_eq, bind, Except.bind, pure,
        Except.pure, Option.map_some]
    have hanswer : Operation.answer (.memoryGrow memory delta) s =
        .ok (.grown (some (UInt32.ofNat b.pages)))
          (s.withStore (s.store.setMemory memory m')) := by
      simp only [Operation.answer, Functor.map, EStateM.map, Operation.grow, hstore]
    refine ⟨_, _, step_of_answer rfl hanswer fuel, ?_, ?_⟩
    · rw [ByteMap.reply, if_pos hroom]
    · rw [ByteMap.next, if_pos hroom]
      exact h.set hm'
  · have hstore : s.store.memoryGrow memory delta = .ok none := by
      simp only [Store.memoryGrow, hmemory, hm.grow?_of_not_canGrow hroom, bind,
        Except.bind, pure, Except.pure, Option.map_none]
    have hanswer : Operation.answer (.memoryGrow memory delta) s =
        .ok (.grown none) s := by
      simp only [Operation.answer, Functor.map, EStateM.map, Operation.grow, hstore]
    refine ⟨_, _, step_of_answer rfl hanswer fuel, ?_, ?_⟩
    · rw [ByteMap.reply, if_neg hroom]
    · rw [ByteMap.next, if_neg hroom]
      exact h

theorem step_size
    (h : s.store.Records memory b) (fuel : Nat) :
    s.step (fuel + 1) (.memorySize memory) = (.size (UInt32.ofNat b.pages), s) := by
  obtain ⟨m, hmemory, hm⟩ := h
  have hstore : s.store.memorySize memory = .ok (UInt32.ofNat b.pages) := by
    simp only [Store.memorySize, hmemory, hm.pages_eq, bind, Except.bind, pure,
      Except.pure]
  have hanswer : Operation.answer (.memorySize memory) s =
      .ok (.size (UInt32.ofNat b.pages)) s := by
    simp only [Operation.answer, Functor.map, EStateM.map, Operation.read, hstore]
  exact step_of_answer rfl hanswer fuel

/-- A command for one memory leaves the others alone. -/
theorem records_step_other
    {other : UInt32} {use : MemoryUse} {command : Command}
    (h : s.store.Records memory b) (hother : other ≠ memory)
    (hcommand : use.command? other = some command) (fuel : Nat) :
    (s.step (fuel + 1) command).2.store.Records memory b := by
  cases use with
  | write offset bytes =>
      obtain rfl := Option.some.inj hcommand
      refine records_step_of_answer rfl (Ends.bind
        (Operation.ends_write (Q := fun _ s' => s'.store.Records memory b) ?_
          fun _ => h) fun _ _ => id) fuel
      intro store hstore
      obtain ⟨m, -, hwritten⟩ := Attempt.bind_eq_ok.mp hstore
      cases hwrite : m.write? offset bytes with
      | none =>
          rw [hwrite] at hwritten
          exact absurd hwritten Attempt.throw_ne_ok
      | some m' =>
          rw [hwrite] at hwritten
          obtain rfl := Attempt.pure_eq_ok.mp hwritten
          exact h.set_other hother m'
  | read offset count =>
      obtain rfl := Option.some.inj hcommand
      exact records_step_of_answer rfl (Ends.map (Operation.ends_read (fun _ _ => h)
        fun _ _ => h)) fuel
  | grow delta =>
      obtain rfl := Option.some.inj hcommand
      refine records_step_of_answer rfl (Ends.map (Operation.ends_grow ?_ h
        fun _ => h)) fuel
      intro size store hstore
      obtain ⟨m, -, hgrown⟩ := Attempt.bind_eq_ok.mp hstore
      obtain ⟨m', -, hpair⟩ := Option.map_eq_some_iff.mp (Attempt.pure_eq_ok.mp hgrown)
      obtain ⟨-, rfl⟩ := Prod.mk.inj hpair
      exact h.set_other hother m'
  | size =>
      obtain rfl := Option.some.inj hcommand
      exact records_step_of_answer rfl (Ends.map (Operation.ends_read (fun _ _ => h)
        fun _ _ => h)) fuel
  | growInstr | sizeInstr => cases hcommand

end Session

/-! ### Instructions -/

namespace Engine

variable {memory module : UInt32} {use : MemoryUse} {setting : Setting} {instr : Instr}
  {r : Run} {rest : Stack}

/-- An instruction pushes what the memory serves. -/
theorem Occurs.exec_eq
    {m : MemInst} (h : Occurs memory use setting module instr r rest)
    (hmemory : r.session.store.HasMemory module memory m) (fuel : Nat) :
    ∃ r', exec (fuel + 1) setting module instr r = .ok .next r' ∧
      r'.stack = .value (m.serve use).1 :: rest ∧
      r'.session.store = r.session.store.setMemory memory (m.serve use).2 := by
  obtain ⟨r₁, hdispatches⟩ := h.dispatches
  obtain ⟨-, -, -, haccess⟩ := id hmemory
  have hinstr := h.isInstr
  rw [← hdispatches.session_eq] at hmemory haccess ⊢
  rw [← hdispatches.stack_eq] at hinstr
  generalize hbefore : r₁.stack = before at hinstr
  cases hinstr with
  | @grow delta _ hdelta =>
      have htransfer := Exec.transfer_memoryGrow hmemory hbefore hdelta
      rw [MemInst.serve]
      cases hgrow : m.grow? delta.u32 with
      | none =>
          rw [hgrow] at htransfer
          exact ⟨_, hdispatches.exec_of_next htransfer fuel, rfl,
            (Store.setMemory_self haccess).symm⟩
      | some grown =>
          rw [hgrow] at htransfer
          exact ⟨_, hdispatches.exec_of_next htransfer fuel, rfl, rfl⟩
  | size =>
      have htransfer := Exec.transfer_memorySize hmemory
      rw [hbefore] at htransfer
      exact ⟨_, hdispatches.exec_of_next htransfer fuel, rfl,
        (Store.setMemory_self haccess).symm⟩

end Engine

/-! ## Histories -/

namespace Session

variable {s s' : Session} {memory : UInt32} {b : ByteMap}

/-- One use gives back what the map does, and the memory goes on to refine the map. -/
theorem Uses.reply_eq
    {use : MemoryUse} {reply : MemoryReply} (h : Uses memory s use reply s')
    (hb : s.store.Records memory b) :
    reply = b.reply memory use ∧ s'.store.Records memory (b.next use) := by
  cases h with
  | command fuel hcommand hcountable =>
      cases use with
      | write offset bytes =>
          obtain rfl := Option.some.inj hcommand
          obtain ⟨response, s', hstep, hreply, hs'⟩ := step_write hb hcountable fuel
          rw [hstep]
          exact ⟨hreply, hs'⟩
      | read offset count =>
          obtain rfl := Option.some.inj hcommand
          obtain ⟨response, hstep, hreply⟩ := step_read hb offset count fuel
          rw [hstep]
          exact ⟨hreply, hb⟩
      | grow delta =>
          obtain rfl := Option.some.inj hcommand
          obtain ⟨response, s', hstep, hreply, hs'⟩ := step_grow hb delta fuel
          rw [hstep]
          exact ⟨hreply, hs'⟩
      | size =>
          obtain rfl := Option.some.inj hcommand
          rw [step_size hb]
          exact ⟨rfl, hb⟩
      | growInstr | sizeInstr => cases hcommand
  | instruction hoccurs hexec hpushed =>
      obtain ⟨m, hmemory⟩ := hoccurs.hasMemory
      obtain ⟨r', hexec', hstack, hstore⟩ := hoccurs.exec_eq hmemory _
      obtain ⟨-, rfl⟩ := EStateM.Result.ok.inj (hexec'.symm.trans hexec)
      obtain ⟨m', hm', hrefines⟩ := id hb
      obtain ⟨-, -, -, haccess⟩ := id hmemory
      obtain rfl : m' = m := Except.ok.inj (hm'.symm.trans haccess)
      obtain ⟨hreply, hnext⟩ := hrefines.serve memory hoccurs.isInstr
      obtain ⟨hentry, -⟩ := List.cons.inj (hpushed.symm.trans hstack)
      rw [Entry.value.inj hentry, hstore]
      exact ⟨hreply, hb.set hnext⟩

/-- A use of another memory does not concern the memory. -/
theorem Uses.records_other
    {other : UInt32} {use : MemoryUse} {reply : MemoryReply}
    (h : Uses other s use reply s') (hother : other ≠ memory)
    (hb : s.store.Records memory b) : s'.store.Records memory b := by
  cases h with
  | command fuel hcommand _ => exact records_step_other hb hother hcommand fuel
  | instruction hoccurs hexec hpushed =>
      obtain ⟨m, hmemory⟩ := hoccurs.hasMemory
      obtain ⟨r', hexec', -, hstore⟩ := hoccurs.exec_eq hmemory _
      obtain ⟨-, rfl⟩ := EStateM.Result.ok.inj (hexec'.symm.trans hexec)
      rw [hstore]
      exact hb.set_other hother _

theorem Trail.explained
    {events : List (UInt32 × MemoryUse × MemoryReply)} (h : s.Trail events s')
    (hb : s.store.Records memory b) :
    b.Explains memory events ∧ s'.store.Records memory (b.after memory events) := by
  induction h generalizing b with
  | nil => exact ⟨trivial, hb⟩
  | @cons _ addr use reply _ rest _ hfirst _ ih =>
      by_cases haddr : addr = memory
      · subst haddr
        obtain ⟨hreply, hb'⟩ := hfirst.reply_eq hb
        obtain ⟨hrest, hfinal⟩ := ih hb'
        rw [ByteMap.Explains, ByteMap.after, if_pos rfl, if_pos rfl]
        exact ⟨⟨hreply, hrest⟩, hfinal⟩
      · rw [ByteMap.Explains, ByteMap.after, if_neg haddr, if_neg haddr]
        exact ih (hfirst.records_other haddr hb)

theorem step_allocMemory_of_ok
    {type : Option Limits} {addr : UInt32} {store : Store}
    (h : s.store.allocMemory type = .ok (addr, store)) (fuel : Nat) :
    s.step (fuel + 1) (.allocMemory type) = (.addr addr, s.withStore store) := by
  have hget : (get : Operation Session) s = .ok s s := rfl
  have hattempt : Operation.ofAttempt Error.fault (s.store.allocMemory type) s =
      .ok (addr, store) s := by
    rw [h]
    rfl
  have halloc : Operation.alloc .fault (·.allocMemory type) s =
      .ok addr (s.withStore store) :=
    (bind_eq_of_eq_ok hget).trans (bind_eq_of_eq_ok hattempt)
  refine step_of_answer rfl ?_ fuel
  simp only [Operation.answer, Functor.map, EStateM.map, halloc]

theorem step_allocMemory_of_error
    {type : Option Limits} {failure : Failure Fault}
    (h : s.store.allocMemory type = .error failure) (fuel : Nat) :
    ∃ error, s.step (fuel + 1) (.allocMemory type) = (.failed error, s) := by
  have hget : (get : Operation Session) s = .ok s s := rfl
  obtain ⟨error, hattempt⟩ : ∃ error,
      Operation.ofAttempt Error.fault (s.store.allocMemory type) s =
        .error error s := by
    rw [h]
    cases failure with
    | cause cause => exact ⟨.fault cause, rfl⟩
    | crash => exact ⟨.crash, rfl⟩
  have halloc : Operation.alloc .fault (·.allocMemory type) s = .error error s :=
    (bind_eq_of_eq_ok hget).trans (bind_eq_of_eq_error hattempt)
  refine ⟨error, step_of_refusal rfl ?_ fuel⟩
  simp only [Operation.answer, Functor.map, EStateM.map, halloc]

theorem refines_of_allocMemory
    {type : Option Limits} {addr : UInt32} {store : Store}
    (h : s.store.allocMemory type = .ok (addr, store)) :
    ∃ limits m, type = some limits ∧ store.memories = s.store.memories.push m ∧
      m.Refines (.zero limits.min.toNat (Page.limit limits s.store.memoryCap)) ∧
      (s.store.memories.size < 2 ^ 32 → store.memory addr = .ok m) := by
  simp only [Store.allocMemory, Attempt.bind_eq_ok, Attempt.pure_eq_ok,
    Prod.mk.injEq] at h
  obtain ⟨limits, hcheck, rfl, rfl⟩ := h
  have hwf := Store.wellFormed_of_checkMemoryType hcheck
  refine ⟨limits, MemInst.new limits s.store.memoryCap,
    (Store.checkMemoryType_eq_ok hcheck).1, rfl,
    hwf.refines_zero (Module.definesMemory_new _ _),
    fun hsize => Store.lookup_eq_ok_iff.mpr ?_⟩
  have haddr : s.store.nextMemory.toNat = s.store.memories.size := by
    rw [Store.nextMemory, UInt32.toNat_ofNat', Nat.mod_eq_of_lt hsize]
  rw [haddr, Store.addMemory, Array.getElem?_push_size]

/-- A memory refines a byte map with a number of pages.  It begins with nothing written
to it, whether it is allocated from outside or defined by a module, and in every
reachable session its limit is the least of 65536 pages, of its declared maximum and of
what the store has allowed from the beginning.  Every use of it is answered as by the
map, whatever other uses of this and of other memories lie in between.  The instructions
always give an answer, and the number of pages that a growth gives back is never the one
that stands for a refusal. -/
theorem memory_refines_byte_map :
    (∀ {s s' : Session} {type : Option Limits} {addr : UInt32} {fuel : Nat},
      s.step (fuel + 1) (.allocMemory type) = (.addr addr, s') →
      ∃ limits m, type = some limits ∧ s'.store.memories = s.store.memories.push m ∧
        m.Refines (.zero limits.min.toNat (Page.limit limits s.store.memoryCap)) ∧
        (s.store.memories.size < 2 ^ 32 → s'.store.memory addr = .ok m)) ∧
    (∀ {s allocated : Store} {m : Module} {name : String} {externs : List ExternVal}
      {imports : List ExternType} {inst : ModuleInst},
      s.Admits m name externs imports allocated inst →
      ∃ memories : List MemInst, allocated.memories = s.memories ++ memories ∧
        List.Forall₂ (fun entry memory => ∃ limits, entry = some limits ∧
          memory.Refines (.zero limits.min.toNat (Page.limit limits s.memoryCap)))
            m.memories memories) ∧
    (∀ {law : ValueLaw} {total : Prop} {s s' : Session} {memory : UInt32} {m : MemInst},
      s.Reachable law total → s.Leads law total s' → s'.store.memory memory = .ok m →
      s'.store.Records memory {
        pages := m.pages.toNat
        limit := Page.limit m.limits s.store.memoryCap
        byte := fun i => m.bytes[i]?.getD 0 }) ∧
    (∀ {s s' : Session} {memory : UInt32} {b : ByteMap}
        {events : List (UInt32 × MemoryUse × MemoryReply)},
      s.store.Records memory b → s.Trail events s' →
      b.Explains memory events ∧ s'.store.Records memory (b.after memory events)) ∧
    (∀ {memory module : UInt32} {use : MemoryUse} {setting : Setting} {instr : Instr}
        {r : Run} {rest : Stack},
      Engine.Occurs memory use setting module instr r rest → ∀ fuel,
      ∃ r' v, Engine.exec (fuel + 1) setting module instr r = .ok .next r' ∧
        r'.stack = .value v :: rest) ∧
    (∀ {s : Store} {memory : UInt32} {b : ByteMap}, s.Records memory b →
      (UInt32.ofNat b.pages).toNat = b.pages ∧ UInt32.ofNat b.pages ≠ 0xffffffff) := by
  refine ⟨?_, fun hadmits => hadmits.refines_zero, ?_,
    fun hb htrail => htrail.explained hb, ?_, ?_⟩
  · intro s s' type addr fuel hstep
    cases halloc : s.store.allocMemory type with
    | error failure =>
        obtain ⟨error, herror⟩ := step_allocMemory_of_error halloc fuel
        rw [herror] at hstep
        cases hstep
    | ok result =>
        rw [step_allocMemory_of_ok halloc] at hstep
        cases hstep
        exact refines_of_allocMemory halloc
  · intro law total s s' memory m hreachable hleads hmemory
    have hmem := Array.mem_of_getElem? (Store.lookup_eq_ok_iff.mp hmemory)
    have hwf := (hleads.evolves hreachable.lawful).wellFormed hreachable.wellFormed
    rw [← (hreachable.capped hleads).memories m hmem]
    exact ⟨m, hmemory, (hwf.memories m hmem).refines⟩
  · intro memory module use setting instr r rest hoccurs fuel
    obtain ⟨m, hmemory⟩ := hoccurs.hasMemory
    obtain ⟨r', hexec, hstack, -⟩ := hoccurs.exec_eq hmemory fuel
    exact ⟨r', _, hexec, hstack⟩
  · rintro s memory b ⟨m, -, hm⟩
    have hpages := hm.pages_le.trans hm.limit_le
    refine ⟨hm.toNat_ofNat_pages, fun heq => ?_⟩
    have htoNat := hm.toNat_ofNat_pages
    rw [heq] at htoNat
    have hlarge : (0xffffffff : UInt32).toNat = 4294967295 := rfl
    omega

end Session

/-- A module with a memory of one page, which may have five. -/
def Module.paged : Module where
  memories := [some ⟨1, some 5⟩]

namespace Session

/-- The last byte of the only page is written, and read together with the first byte of
the page that is added then.  The memory of a module grows to the three pages that its
store allows, and no further. -/
theorem byte_survives_growth :
    (let s : Session := { store := ({} : Config).newStore false }
      let s₁ := (s.step 1 (.allocMemory (some ⟨1, some 2⟩))).2
      let s₂ := (s₁.step 1 (.memoryWrite 0 65535 [7])).2
      let s₃ := (s₂.step 1 (.memoryGrow 0 1)).2
      (s₃.step 1 (.memoryRead 0 65535 2)).1 = .bytes [7, 0]) ∧
    (let s : Session := { store := ({ memoryCap := 3 } : Config).newStore false }
      let s₁ := (s.step 2 (.instantiate (some .paged) "paged" [] .background)).2
      let s₂ := (s₁.step 1 (.memoryGrow 0 2)).2
      (s₁.step 1 (.memoryGrow 0 2)).1 = .grown (some 1) ∧
      (s₂.step 1 (.memoryGrow 0 1)).1 = .grown none) := by
  obtain ⟨hallocate, -, hreachable, hexplain, -⟩ := memory_refines_byte_map
  constructor
  · intro s s₁ s₂ s₃
    have halloc : s.step 1 (.allocMemory (some ⟨1, some 2⟩)) = (.addr 0, s₁) :=
      Prod.ext rfl rfl
    have hcap : s.store.memoryCap.toNat = 65536 := rfl
    have hrecords : s₁.store.Records 0 (.zero 1 2) := by
      obtain ⟨limits, m, hlimits, -, hrefines, hmemory⟩ := hallocate halloc
      obtain rfl := Option.some.inj hlimits
      rw [Page.limit, hcap] at hrefines
      exact ⟨m, hmemory (by decide), hrefines⟩
    have hlength : (MemoryUse.write 65535 [7]).IsCountable := show 1 < 2 ^ 63 by decide
    have hwrite : Uses 0 s₁ (.write 65535 [7]) _ s₂ := .command 0 rfl hlength
    have hgrow : Uses 0 s₂ (.grow 1) _ s₃ := .command 0 rfl trivial
    have hread : Uses 0 s₃ (.read 65535 2)
        (.response (s₃.step 1 (.memoryRead 0 65535 2)).1) _ :=
      .command 0 rfl trivial
    obtain ⟨⟨-, -, hreply, -⟩, -⟩ :=
      hexplain hrecords (.cons hwrite (.cons hgrow (.cons hread .nil)))
    refine MemoryReply.response.inj (hreply.trans ?_)
    simp [ByteMap.reply, ByteMap.next, ByteMap.Fits, ByteMap.CanGrow, ByteMap.zero,
      ByteMap.read, ByteMap.write, ByteMap.grow, List.range_succ]
  · intro s s₁ s₂
    have hnew : s.Reachable .trivial False := reachable_newStore _ _
    have hleads : s.Leads .trivial False s₁ := .step .refl 2 (.instantiate False.elim)
    obtain ⟨m, hmemory, hlimits, hpages⟩ : ∃ m, s₁.store.memory 0 = .ok m ∧
        m.limits = ⟨1, some 5⟩ ∧ m.pages = 1 :=
      ⟨_, rfl, rfl, MemInst.pages_eq (MemInst.size_new ⟨1, some 5⟩ 3)⟩
    have hrecords := hreachable hnew hleads hmemory
    have hlimit : Page.limit m.limits s.store.memoryCap = 3 := by
      rw [hlimits]
      rfl
    have hfirst : Uses 0 s₁ (.grow 2) (.response (s₁.step 1 (.memoryGrow 0 2)).1) s₂ :=
      .command 0 rfl trivial
    have hsecond : Uses 0 s₂ (.grow 1) (.response (s₂.step 1 (.memoryGrow 0 1)).1) _ :=
      .command 0 rfl trivial
    obtain ⟨⟨hreply, hreply', -⟩, -⟩ :=
      hexplain hrecords (.cons hfirst (.cons hsecond .nil))
    refine ⟨MemoryReply.response.inj (hreply.trans ?_),
      MemoryReply.response.inj (hreply'.trans ?_)⟩
    · simp [ByteMap.reply, ByteMap.CanGrow, hpages, hlimit]
    · simp [ByteMap.reply, ByteMap.next, ByteMap.CanGrow, ByteMap.grow, hpages, hlimit]

end Session

end WebAssembly
