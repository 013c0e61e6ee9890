import WebAssembly.Proofs.Linking

/-!
# Well-formed stores

The sizes of memories and tables agree with their limits, and every address that is kept
anywhere is valid.  Each change of a store keeps this, although several of them write
without a check of their own.  While addresses suffice, globals have values of their
types as well.
-/

namespace WebAssembly

/-- The memory consists of whole pages, whose number lies between its declared minimum
and its cap. -/
structure MemInst.WellFormed (m : MemInst) : Prop where
  size : m.bytes.size = 65536 * m.pages.toNat
  min_le : m.limits.min ≤ m.pages
  le_cap : m.pages ≤ m.cap
  cap_le : m.cap ≤ 65536
  cap_le_max : ∀ max, m.limits.max = some max → m.cap ≤ max

/-- The size of the table lies within its declared limits, and a slot that is not empty
holds the address of one of the given number of functions. -/
structure TableInst.WellFormed (functions : Nat) (t : TableInst) : Prop where
  min_le : t.limits.min.toNat ≤ t.slots.size
  le_max : ∀ max, t.limits.max = some max → t.slots.size ≤ max.toNat
  countable : t.slots.size < UInt32.size
  slots : ∀ (i : Nat) function, t.slots[i]? = some (some function) →
    function.toNat < functions

/-- A module instance has the address of its position, of which a word of 32 bits is
left, and the addresses that it holds and exports are valid. -/
structure ModuleInst.WellFormed (s : Store) (position : Nat)
    (inst : ModuleInst) : Prop where
  addr : inst.addr.toNat = position % 2 ^ 32
  addrs : ∀ kind, ∀ addr ∈ inst.addrs kind, addr.toNat < s.arenaSize kind
  exports : ∀ entry ∈ inst.exports, entry.2.addr.toNat < s.arenaSize entry.2.kind

/-- Everything in the store is well-formed. -/
structure Store.WellFormed (s : Store) : Prop where
  memories : ∀ m ∈ s.memories, m.WellFormed
  tables : ∀ t ∈ s.tables, t.WellFormed s.functions.size
  functions : ∀ f ∈ s.functions, f.kind = .wasm → f.module.toNat < s.modules.size
  modules : ∀ (position : Nat) inst, s.modules[position]? = some inst →
    inst.WellFormed s position

theorem Page.toNat_bytes (pages : UInt32) :
    (Page.bytes pages).toNat = 65536 * pages.toNat := by
  have hpages := pages.toNat_lt
  rw [Page.bytes, UInt64.toNat_shiftLeft, UInt32.toNat_toUInt64, Nat.shiftLeft_eq]
  have h16 : (16 : UInt64).toNat % 64 = 16 := rfl
  rw [h16]
  omega

theorem toNat_min (a b : UInt32) : (min a b).toNat = min a.toNat b.toNat := by
  have hmin : min a b = if a ≤ b then a else b := rfl
  rw [hmin, apply_ite UInt32.toNat, Nat.min_def]
  exact if_congr UInt32.le_iff_toNat_le rfl rfl

/-- The number of pages that a memory may have: as many as are allowed to any memory, to
a memory of its declared limits, and to a memory of its store. -/
def Page.limit (limits : Limits) (storeCap : UInt32) : Nat :=
  min (min ((limits.max.map UInt32.toNat).getD 65536) 65536) storeCap.toNat

namespace MemInst

theorem cap_new (limits : Limits) (storeCap : UInt32) :
    (MemInst.new limits storeCap).cap.toNat = Page.limit limits storeCap := by
  rw [MemInst.new, toNat_min, toNat_min, Page.limit]
  cases limits.max <;> rfl

theorem size_new (limits : Limits) (storeCap : UInt32) :
    (MemInst.new limits storeCap).bytes.size = 65536 * limits.min.toNat := by
  simp [MemInst.new, Page.toNat_bytes]

theorem pages_eq
    {m : MemInst} {pages : UInt32} (h : m.bytes.size = 65536 * pages.toNat) :
    m.pages = pages := by
  rw [MemInst.pages, h, Page.byteCount, Nat.mul_div_cancel_left _ (by decide),
    UInt32.ofNat_toNat]

theorem wellFormed_new
    {limits : Limits} {storeCap : UInt32} (hlimits : limits.Within Page.maxCount)
    (hcap : limits.min ≤ storeCap) :
    (MemInst.new limits storeCap).WellFormed := by
  have hsize : (MemInst.new limits storeCap).bytes.size = 65536 * limits.min.toNat := by
    simp [MemInst.new, Page.toNat_bytes]
  have hpages := pages_eq hsize
  have hmin : limits.min ≤ limits.max.getD Page.maxCount := by
    cases hmax : limits.max with
    | none => exact hlimits.1
    | some max => exact (hlimits.2 max hmax).2
  exact {
    size := by rw [hpages, hsize]
    min_le := hpages ▸ UInt32.le_refl _
    le_cap := hpages ▸ Std.le_min_iff.mpr ⟨Std.le_min_iff.mpr ⟨hmin, hlimits.1⟩, hcap⟩
    cap_le := UInt32.le_trans Std.min_le_left Std.min_le_right
    cap_le_max := by
      intro max hmax
      have hmax : limits.max.getD Page.maxCount = max := by
        rw [show limits.max = some max from hmax, Option.getD_some]
      exact hmax ▸ UInt32.le_trans Std.min_le_left Std.min_le_left }

theorem WellFormed.of_size_eq
    {m m' : MemInst} (h : m.WellFormed) (hlimits : m'.limits = m.limits)
    (hcap : m'.cap = m.cap) (hsize : m'.bytes.size = m.bytes.size) : m'.WellFormed := by
  have hpages : m'.pages = m.pages := pages_eq (hsize.trans h.size)
  exact {
    size := by rw [hsize, hpages, h.size]
    min_le := by rw [hlimits, hpages]; exact h.min_le
    le_cap := by rw [hcap, hpages]; exact h.le_cap
    cap_le := hcap ▸ h.cap_le
    cap_le_max := by rw [hlimits, hcap]; exact h.cap_le_max }

theorem WellFormed.grow
    {m grown : MemInst} {delta : UInt32} (h : m.WellFormed)
    (hgrow : m.grow? delta = some grown) :
    grown.WellFormed := by
  unfold MemInst.grow? at hgrow
  split at hgrow
  · rename_i hfits
    obtain rfl := Option.some.inj hgrow
    have hbound : m.cap.toNat ≤ 65536 := UInt32.le_iff_toNat_le.mp h.cap_le
    have hsum : (m.pages + delta).toNat = m.pages.toNat + delta.toNat := by
      rw [UInt32.toNat_add, Nat.mod_eq_of_lt (by omega)]
    have hsize : (m.bytes ++ Array.replicate (Page.bytes delta).toNat 0).size = 65536 *
        (m.pages + delta).toNat := by
      rw [Array.size_append, Array.size_replicate, Page.toNat_bytes, h.size, hsum,
        Nat.mul_add]
    have hpages := @pages_eq { m with
      bytes := m.bytes ++ Array.replicate (Page.bytes delta).toNat 0 } _ hsize
    have hle : m.pages ≤ m.pages + delta := UInt32.le_iff_toNat_le.mpr (by omega)
    have hcap : m.pages + delta ≤ m.cap := UInt32.le_iff_toNat_le.mpr (by omega)
    exact {
      size := by rw [hpages, ← hsize]
      min_le := hpages ▸ UInt32.le_trans h.min_le hle
      le_cap := hpages ▸ hcap
      cap_le := h.cap_le
      cap_le_max := h.cap_le_max }
  · cases hgrow

end MemInst

namespace TableInst.WellFormed

variable {functions functions' : Nat} {t t' : TableInst}

theorem new
    {element : UInt8} {limits : Limits} (hlimits : limits.Within 0xffffffff) :
    (TableInst.new element limits).WellFormed functions where
  min_le := by simp [TableInst.new]
  le_max := by
    intro max hmax
    simpa [TableInst.new] using UInt32.le_iff_toNat_le.mp (hlimits.2 max hmax).2
  countable := by simpa [TableInst.new] using limits.min.toNat_lt
  slots := by
    intro i function hi
    simp [TableInst.new, Array.getElem?_replicate] at hi

theorem mono
    (h : t.WellFormed functions) (hle : functions ≤ functions') :
    t.WellFormed functions' :=
  { h with slots := fun i function hi => Nat.lt_of_lt_of_le (h.slots i
    function hi) hle }

theorem refill
    {slots : Array (Option UInt32)} (h : t.WellFormed functions)
    (hsize : slots.size = t.slots.size)
    (hslots : ∀ (i : Nat) function, slots[i]? = some (some function) →
      t.slots[i]? = some (some function) ∨ function.toNat < functions) :
    { t with slots }.WellFormed functions where
  min_le := hsize ▸ h.min_le
  le_max := hsize ▸ h.le_max
  countable := hsize ▸ h.countable
  slots := fun i function hi => (hslots i function hi).elim (h.slots i function) id

theorem grow
    {grown : TableInst} {delta : UInt32} (h : t.WellFormed functions)
    (hgrow : t.grow? delta = some grown) :
    grown.WellFormed functions := by
  have hcount : t.size.toNat = t.slots.size := UInt32.toNat_ofNat_of_lt' h.countable
  simp only [TableInst.grow?, hcount] at hgrow
  split at hgrow
  · rename_i hfits
    obtain rfl := Option.some.inj hgrow
    have hbound := (t.limits.max.getD 0xffffffff).toNat_lt
    exact {
      min_le := by
        have := h.min_le
        simp only [Array.size_append, Array.size_replicate]
        omega
      le_max := by
        intro max hmax
        rw [show t.limits.max = some max from hmax, Option.getD_some] at hfits
        simpa using hfits
      countable := by
        simp only [Array.size_append, Array.size_replicate, UInt32.size]
        omega
      slots := by
        intro i function hi
        rw [Array.getElem?_append] at hi
        split at hi
        · exact h.slots i function hi
        · simp [Array.getElem?_replicate] at hi }
  · cases hgrow

end TableInst.WellFormed

theorem ModuleInst.WellFormed.of_extends
    {guarded : Prop} {s s' : Store} {position : Nat} {inst : ModuleInst}
    (h : inst.WellFormed s position) (hext : s.Extends guarded s') :
    inst.WellFormed s' position where
  addr := h.addr
  addrs := fun kind addr haddr => Nat.lt_of_lt_of_le (h.addrs kind addr haddr)
    (hext.arenaSize_le kind)
  exports := fun entry hentry => Nat.lt_of_lt_of_le (h.exports entry hentry)
    (hext.arenaSize_le entry.2.kind)

namespace Store

variable {law : ValueLaw} {guarded total : Prop} {s s' : Store} {m : Module}
  {name : String} {externs : List ExternVal} {inst : ModuleInst} {added : Additions}
  {imports : List ExternType}

theorem wellFormed_of_checkMemoryType
    {type : Option Limits} {limits : Limits} (h : s.checkMemoryType type = .ok limits) :
    (MemInst.new limits s.memoryCap).WellFormed := by
  obtain ⟨rfl, hcheck, hcap⟩ := checkMemoryType_eq_ok h
  obtain ⟨_, ⟨⟩, hwithin⟩ := Limits.check_eq_ok_iff.mp hcheck
  exact MemInst.wellFormed_new hwithin hcap

theorem Allocation.wellFormed_tables
    (h : s.Allocation m name externs inst added)
    (hvalid : m.Valid (.ofModule m s.features) imports) (functions : Nat) :
    ∀ t ∈ added.tables, t.WellFormed functions := by
  intro t ht
  obtain ⟨entry, hentry, hnew⟩ := exists_of_mem_right (mapM_eq_some_iff.mp h.tables) ht
  obtain ⟨type, limits, rfl, -, hlimits, hwithin⟩ := hvalid.tables entry hentry
  obtain rfl : TableInst.new type.element limits = t := by simpa [hlimits] using hnew
  exact .new hwithin

theorem Allocation.wellFormed_memories
    (h : s.Allocation m name externs inst added)
    (hmemories : s.checkMemories m = .ok ()) :
    ∀ memory ∈ added.memories, memory.WellFormed := by
  intro memory hmemory
  obtain ⟨entry, hentry, hnew⟩ :=
    exists_of_mem_right (mapM_eq_some_iff.mp h.memories) hmemory
  obtain ⟨limits, rfl, rfl⟩ := Option.map_eq_some_iff.mp hnew
  obtain ⟨_, hcheck, -⟩ :=
    Attempt.bind_eq_ok.mp (Module.checkEntries_mem hmemories (some limits) hentry)
  obtain ⟨hsome, -, -⟩ := checkMemoryType_eq_ok hcheck
  obtain rfl := Option.some.inj hsome
  exact wellFormed_of_checkMemoryType hcheck

theorem Allocation.wellFormed_exports
    (h : s.Allocation m name externs inst added)
    (hvalid : m.Valid (.ofModule m s.features) imports)
    (haddrs : ∀ kind, ∀ addr ∈ inst.addrs kind, addr.toNat < s'.arenaSize kind) :
    ∀ entry ∈ inst.exports, entry.2.addr.toNat < s'.arenaSize entry.2.kind := by
  intro entry hentry
  obtain ⟨exports, hexports, hexported⟩ := h.exports
  obtain ⟨e, he, hval⟩ := exists_of_mem_right (mapM_eq_some_iff.mp hexported) hentry
  obtain ⟨_, hmem, rfl⟩ := exists_of_mem_right (mapM_eq_some_iff.mp hexports) he
  obtain ⟨_, size, ⟨⟩, hsize, -⟩ := hvalid.exports _ hmem
  rw [exportVal_eq hsize] at hval
  obtain ⟨addr, haddr, rfl⟩ := Option.map_eq_some_iff.mp hval
  have hinst : { inst with exports := [] }.addrs e.kind = inst.addrs e.kind := by
    cases e.kind <;> rfl
  rw [hinst] at haddr
  exact haddrs e.kind addr (List.mem_of_getElem? haddr)

theorem Allocation.module_eq
    (h : s.Allocation m name externs inst added) :
    ∀ f ∈ added.functions, f.module = s.nextModule := by
  intro f hf
  obtain ⟨_, _, _, _, _, -, -, -, rfl⟩ := h.exists_code f hf
  exact h.addr

theorem WellFormed.link
    (hs : s.WellFormed) (hvalid : m.validate s.features = .ok imports)
    (hlink : s.link imports externs = .ok ()) (hmemories : s.checkMemories m = .ok ())
    (halloc : s.allocate m name externs = some (s', inst)) : s'.WellFormed := by
  have hvalid := Module.valid_of_validate hvalid
  have hlink := link_eq_ok_iff.mp hlink
  have hext : s.Extends False s' := .allocate halloc
  have hcovers := covers_of_allocate hvalid hlink halloc
  obtain ⟨added, hadded, rfl⟩ := exists_allocation halloc
  exact {
    memories := by
      intro memory hmemory
      rcases mem_append_list.mp hmemory with hold | hnew
      · exact hs.memories memory hold
      · exact hadded.wellFormed_memories hmemories memory hnew
    tables := by
      intro t ht
      rcases mem_append_list.mp ht with hold | hnew
      · exact (hs.tables t hold).mono hext.functions.size_le
      · exact hadded.wellFormed_tables hvalid _ t hnew
    functions := by
      intro f hf hkind
      rcases mem_append_list.mp hf with hold | hnew
      · exact Nat.lt_of_lt_of_le (hs.functions f hold hkind) hext.modules.size_le
      · rw [hadded.module_eq f hnew, nextModule, UInt32.toNat_ofNat', addModule,
          Array.size_push]
        exact Nat.lt_succ_of_le (Nat.mod_le _ _)
    modules := by
      intro position inst' hinst'
      rw [addModule, Array.getElem?_push] at hinst'
      split at hinst'
      · rename_i hposition
        obtain rfl := Option.some.inj hinst'
        refine ⟨?_, hcovers.range, hadded.wellFormed_exports hvalid hcovers.range⟩
        rw [hadded.addr, nextModule, UInt32.toNat_ofNat', hposition]
        rfl
      · exact (hs.modules position inst' hinst').of_extends hext }

/-- Every change keeps a store well-formed. -/
theorem Change.wellFormed
    (h : Change law guarded total s s') (hs : s.WellFormed) : s'.WellFormed := by
  have hext := h.extension
  have hmodules (hsame : s'.modules = s.modules) (position : Nat) (inst : ModuleInst)
      (hinst : s'.modules[position]? = some inst) : inst.WellFormed s' position :=
    (hs.modules position inst (hsame ▸ hinst)).of_extends hext
  cases h with
  | assign => exact { hs with modules := hmodules rfl }
  | splice hmemory =>
      refine { hs with memories := fun m hm => ?_, modules := hmodules rfl }
      rcases Array.mem_or_eq_of_mem_setIfInBounds hm with hold | rfl
      · exact hs.memories m hold
      · have hold := hs.memories _ (Array.mem_of_getElem? (lookup_eq_ok_iff.mp hmemory))
        exact hold.of_size_eq rfl rfl (size_overwrite _ _ _)
  | growMemory hmemory hgrow =>
      refine { hs with memories := fun m hm => ?_, modules := hmodules rfl }
      rcases Array.mem_or_eq_of_mem_setIfInBounds hm with hold | rfl
      · exact hs.memories m hold
      · exact (hs.memories _ (Array.mem_of_getElem? (lookup_eq_ok_iff.mp hmemory))).grow
          hgrow
  | refill htable hcount hslots =>
      refine { hs with tables := fun t ht => ?_, modules := hmodules rfl }
      rcases Array.mem_or_eq_of_mem_setIfInBounds ht with hold | rfl
      · exact hs.tables t hold
      · exact (hs.tables _ (Array.mem_of_getElem? (lookup_eq_ok_iff.mp htable))).refill
          hcount hslots
  | growTable htable hgrow =>
      refine { hs with tables := fun t ht => ?_, modules := hmodules rfl }
      rcases Array.mem_or_eq_of_mem_setIfInBounds ht with hold | rfl
      · exact hs.tables t hold
      · exact (hs.tables _ (Array.mem_of_getElem? (lookup_eq_ok_iff.mp htable))).grow
          hgrow
  | addFunction =>
      refine { hs with
        tables := fun t ht => ?_, functions := fun f hf => ?_, modules := hmodules rfl }
      · exact (hs.tables t ht).mono hext.functions.size_le
      · rcases Array.mem_push.mp hf with hold | rfl
        · exact hs.functions f hold
        · exact nofun
  | addTable halloc =>
      obtain ⟨type, limits, rfl, hlimits, hcheck, rfl⟩ := allocTable_eq_ok halloc
      obtain ⟨_, _, ⟨⟩, -, hlimits', hwithin⟩ := TableType.check_eq_ok_iff.mp hcheck
      obtain rfl := Option.some.inj (hlimits.symm.trans hlimits')
      refine { hs with tables := fun t ht => ?_, modules := hmodules rfl }
      rcases Array.mem_push.mp ht with hold | rfl
      · exact hs.tables t hold
      · exact .new hwithin
  | addMemory halloc =>
      obtain ⟨limits, hcheck, rfl⟩ := allocMemory_eq_ok halloc
      refine { hs with memories := fun m hm => ?_, modules := hmodules rfl }
      rcases Array.mem_push.mp hm with hold | rfl
      · exact hs.memories m hold
      · exact wellFormed_of_checkMemoryType hcheck
  | addGlobal halloc =>
      obtain ⟨type, -, -, rfl⟩ := allocGlobal_eq_ok halloc
      exact { hs with modules := hmodules rfl }
  | link hvalid hlink hmemories halloc => exact hs.link hvalid hlink hmemories halloc

theorem Evolves.wellFormed
    (h : Evolves law guarded total s s') (hs : s.WellFormed) : s'.WellFormed :=
  h.induct (Q := fun _ => True) (fun _ _ _ => id)
    (fun _ _ _ hchange => hchange.wellFormed) trivial hs

/-- While the addresses of globals suffice, every change leaves them with values of
their types. -/
theorem Change.globalsTyped
    (h : Change law guarded total s s') (hsize : s'.globals.size ≤ UInt32.size)
    (hs : s.GlobalsTyped) :
    s'.GlobalsTyped := by
  cases h with
  | assign hglobal hguarded htype =>
      intro g hg
      rcases Array.mem_or_eq_of_mem_setIfInBounds hg with hold | rfl
      · exact hs g hold
      · exact htype
  | splice | growMemory | refill | growTable | addFunction => exact hs
  | addTable halloc =>
      obtain ⟨_, _, -, -, -, rfl⟩ := allocTable_eq_ok halloc
      exact hs
  | addMemory halloc =>
      obtain ⟨_, -, rfl⟩ := allocMemory_eq_ok halloc
      exact hs
  | addGlobal halloc =>
      obtain ⟨type, -, htype, rfl⟩ := allocGlobal_eq_ok halloc
      intro g hg
      rcases Array.mem_push.mp hg with hold | rfl
      · exact hs g hold
      · exact htype
  | link hvalid hlink hmemories halloc =>
      obtain ⟨added, hadded, rfl⟩ := exists_allocation halloc
      exact (hadded.globalsTyped (Module.valid_of_validate hvalid)
        (link_eq_ok_iff.mp hlink) hs hsize).1

theorem Evolves.globalsTyped
    (h : Evolves law guarded total s s') (hsize : s'.globals.size ≤ UInt32.size)
    (hs : s.GlobalsTyped) :
    s'.GlobalsTyped :=
  h.induct (Q := fun s => s.globals.size ≤ UInt32.size)
    (fun _ _ hext => Nat.le_trans hext.globals.size_le)
    (fun _ _ hsize hchange => hchange.globalsTyped hsize) hsize hs

end Store
end WebAssembly
