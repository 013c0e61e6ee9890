import WebAssembly.Proofs.Bytes
import WebAssembly.Proofs.Dispatch
import WebAssembly.Proofs.IndexSpaces

/-!
# What segments write

Every segment of a module is a patch: a run of cells for one table or memory, from an
offset on.  Writing one segment puts its patch over the cells that it covers and touches
nothing else.  By induction over the sections, each cell ends with what the last patch
that covers it has for it.
-/

namespace WebAssembly

/-- A run of cells that is to be written into one entry of an arena, from an offset
on. -/
structure Patch (α : Type) where
  addr : UInt32
  offset : UInt32
  content : List α
  deriving DecidableEq, Repr

namespace Patch

variable {α ε : Type} {p : Patch α} {patches : List (Patch α)} {cells : ε → Array α}
  {arena arena' : Array ε}

/-- What the patch has for a cell, if it covers the cell. -/
def cell (p : Patch α) (i j : Nat) : Option α :=
  if p.addr.toNat = i ∧ p.offset.toNat ≤ j then p.content[j - p.offset.toNat]? else none

/-- What the last patch that covers a cell has for it. -/
def lastCell (patches : List (Patch α)) (i j : Nat) : Option α :=
  (patches.filterMap (·.cell i j)).getLast?

/-- Some patch reaches beyond the last cell of the entry that it is meant for. -/
def Overrun (cells : ε → Array α) (arena : Array ε) (patches : List (Patch α)) : Prop :=
  ∃ p ∈ patches, ∃ entry, arena[p.addr.toNat]? = some entry ∧
    (cells entry).size < p.offset.toNat + p.content.length

/-- The cell at a position of an entry of an arena. -/
def cellAt (cells : ε → Array α) (arena : Array ε) (i j : Nat) : Option α :=
  arena[i]?.bind fun entry => (cells entry)[j]?

theorem lastCell_cons (p : Patch α) (rest : List (Patch α)) (i j : Nat) :
    lastCell (p :: rest) i j = (lastCell rest i j).or (p.cell i j) := by
  simp only [lastCell, List.filterMap_cons]
  cases p.cell i j with
  | none => rw [Option.or_none]
  | some a =>
      rw [List.getLast?_cons]
      cases (rest.filterMap (·.cell i j)).getLast? <;> rfl

theorem lastCell_eq_none
    {i : Nat} (h : ∀ p ∈ patches, p.addr.toNat ≠ i) (j : Nat) :
    lastCell patches i j = none := by
  have hcells : patches.filterMap (·.cell i j) = [] := by
    refine List.filterMap_eq_nil_iff.mpr fun p hp =>
      if_neg fun hcovers => h p hp hcovers.1
  rw [lastCell, hcells, List.getLast?_nil]

/-- An entry that is overlaid with a patch has its cells, and no other cell of the arena
changes. -/
theorem cellAt_setIfInBounds
    {old new : ε} (hold : arena[p.addr.toNat]? = some old)
    (h : Overlays (cells old) p.offset.toNat p.content (cells new)) (i j : Nat) :
    cellAt cells (arena.setIfInBounds p.addr.toNat new) i j =
      (p.cell i j).or (cellAt cells arena i j) := by
  have hlt := (Array.getElem?_eq_some_iff.mp hold).1
  unfold cellAt cell
  rw [Array.getElem?_setIfInBounds]
  by_cases hi : p.addr.toNat = i
  · subst hi
    rw [if_pos rfl, if_pos hlt, hold, Option.bind_some, Option.bind_some, h j]
    by_cases hj : p.offset.toNat ≤ j ∧ j < p.offset.toNat + p.content.length
    · rw [if_pos hj, if_pos ⟨rfl, hj.1⟩, List.getElem?_eq_getElem (by omega),
        Option.some_or]
    · rw [if_neg hj]
      split
      · rw [List.getElem?_eq_none (by omega), Option.none_or]
      · rw [Option.none_or]
  · rw [if_neg hi, if_neg fun hcovers => hi hcovers.1, Option.none_or]

/-- Where no cell of an entry changes, the entry does not. -/
theorem getElem?_eq_of_cellAt
    {R : ε → ε → Prop} {i : Nat} (hsize : arena'.size = arena.size)
    (hkept : Kept R arena arena') (hR : ∀ a b, R a b → cells b = cells a → b = a)
    (hcells : ∀ j, cellAt cells arena' i j = cellAt cells arena i j) :
    arena'[i]? = arena[i]? := by
  cases hentry : arena[i]? with
  | none => exact Array.getElem?_eq_none (hsize ▸ Array.getElem?_eq_none_iff.mp hentry)
  | some a =>
      obtain ⟨b, hb, hab⟩ := hkept i a hentry
      rw [hb, hR a b hab]
      refine Array.ext_getElem? fun j => ?_
      simpa [cellAt, hentry, hb] using hcells j

section Run

variable {σ β : Type} {R : β → Patch α → Prop} {entries : List β}

/-- If each step of a fold writes a patch, then each cell ends with what the last patch
that covers it has for it, or else with what it held before. -/
theorem lastCell_of_foldlM
    {P : σ → Prop} {view : σ → Nat → Nat → Option α} {f : σ → β → Option σ} {s s' : σ}
    (hpatches : List.Forall₂ R entries patches)
    (hstep : ∀ b ∈ entries, ∀ p ∈ patches, ∀ t t', R b p → P t → f t b = some t' →
      P t' ∧ ∀ i j, view t' i j = (p.cell i j).or (view t i j))
    (hs : P s) (h : entries.foldlM f s = some s') :
    P s' ∧ ∀ i j, view s' i j = (lastCell patches i j).or (view s i j) := by
  induction hpatches generalizing s with
  | nil =>
      obtain rfl : s = s' := by simpa using h
      exact ⟨hs, fun _ _ => rfl⟩
  | @cons b p rest patches hp _ ih =>
      simp only [List.foldlM_cons, Option.bind_eq_bind, Option.bind_eq_some_iff] at h
      obtain ⟨t, ht, hrest⟩ := h
      obtain ⟨hPt, hviewt⟩ :=
        hstep b List.mem_cons_self p List.mem_cons_self s t hp hs ht
      obtain ⟨hPs', hview⟩ :=
        ih (fun b hb p hp => hstep b (.tail _ hb) p (.tail _ hp)) hPt hrest
      refine ⟨hPs', fun i j => ?_⟩
      rw [hview, hviewt, lastCell_cons, Option.or_assoc]

/-- If each check of a series compares a patch with the entry that it is meant for, then
the series succeeds unless there is an overrun. -/
theorem forEach_eq_ok_iff_of_checks
    {ω : Type} {check : Nat → β → Attempt ω Unit}
    (hpatches : List.Forall₂ R entries patches)
    (hcheck : ∀ index, ∀ b ∈ entries, ∀ p, R b p → ∃ entry,
      arena[p.addr.toNat]? = some entry ∧ (check index b = .ok () ↔
        p.offset.toNat + p.content.length ≤ (cells entry).size)) :
    Attempt.forEach check 0 entries = .ok () ↔ ¬Overrun cells arena patches := by
  rw [Attempt.forEach_eq_ok]
  constructor
  · rintro hall ⟨p, hp, entry, hentry, hsize⟩
    obtain ⟨i, hi⟩ := List.getElem?_of_mem hp
    obtain ⟨b, hb, hR⟩ := exists_of_getElem?_left hpatches.flip hi
    obtain ⟨_, hentry', hiff⟩ := hcheck (0 + i) b (List.mem_of_getElem? hb) p hR
    obtain rfl := Option.some.inj (hentry.symm.trans hentry')
    exact Nat.not_le_of_lt hsize (hiff.mp (hall i b hb))
  · intro hfits i b hb
    obtain ⟨p, hp, hR⟩ := exists_of_getElem?_left hpatches hb
    obtain ⟨entry, hentry, hiff⟩ := hcheck (0 + i) b (List.mem_of_getElem? hb) p hR
    refine hiff.mpr (Nat.le_of_not_lt fun hsize => hfits ?_)
    exact ⟨p, List.mem_of_getElem? hp, entry, hentry, hsize⟩

end Run

end Patch

namespace TableInst

/-- Another table differs in what its slots hold. -/
def Refills (t t' : TableInst) : Prop :=
  t' = { t with slots := t'.slots } ∧ t'.slots.size = t.slots.size

theorem Refills.refl (t : TableInst) : t.Refills t :=
  ⟨rfl, rfl⟩

theorem Refills.trans
    {t t' t'' : TableInst} (h : t.Refills t') (h' : t'.Refills t'') :
    t.Refills t'' := by
  refine ⟨?_, h'.2.trans h.2⟩
  rw [h'.1, h.1]

end TableInst

namespace MemInst

/-- Another memory differs in its bytes. -/
def Refills (m m' : MemInst) : Prop :=
  m' = { m with bytes := m'.bytes } ∧ m'.bytes.size = m.bytes.size

theorem Refills.refl (m : MemInst) : m.Refills m :=
  ⟨rfl, rfl⟩

theorem Refills.trans
    {m m' m'' : MemInst} (h : m.Refills m') (h' : m'.Refills m'') : m.Refills m'' := by
  refine ⟨?_, h'.2.trans h.2⟩
  rw [h'.1, h.1]

end MemInst

namespace Store

open Patch

variable {s t t' : Store} {m : Module} {inst : ModuleInst}

/-! ## Patches of a module -/

/-- What an element segment writes: the addresses of its functions, in their order. -/
def elementPatch (s : Store) (inst : ModuleInst) (e : ElementSegment) :
    Option (Patch (Option UInt32)) := do
  let offset ← s.segmentOffset inst e.offset
  let addr ← elementTarget inst e
  let functions ← e.init.mapM fun index => inst.functions[index.toNat]?
  pure { addr, offset, content := functions.map some }

/-- What a data segment writes. -/
def dataPatch (s : Store) (inst : ModuleInst) (d : DataSegment) :
    Option (Patch UInt8) := do
  let offset ← s.segmentOffset inst d.offset
  let addr ← dataTarget inst d
  pure { addr, offset, content := d.init }

/-- The patches are those of the segments of a module, in the order of its sections. -/
structure HasPatches (s : Store) (inst : ModuleInst) (m : Module)
    (elements : List (Patch (Option UInt32))) (data : List (Patch UInt8)) : Prop where
  elements : m.elements.mapM (·.bind (s.elementPatch inst)) = some elements
  data : m.data.mapM (·.bind (s.dataPatch inst)) = some data

/-- What a slot of a table holds, if there is such a slot. -/
def slotAt (s : Store) (i j : Nat) : Option (Option UInt32) :=
  cellAt TableInst.slots s.tables i j

/-- The byte at a position of a memory, if there is one. -/
def byteAt (s : Store) (i j : Nat) : Option UInt8 :=
  cellAt MemInst.bytes s.memories i j

theorem elementPatch_eq_some
    {e : ElementSegment} {p : Patch (Option UInt32)}
    (h : s.elementPatch inst e = some p) :
    s.segmentOffset inst e.offset = some p.offset ∧ elementTarget inst e = some p.addr ∧
      ∃ functions, e.init.mapM (fun index => inst.functions[index.toNat]?) =
          some functions ∧
        p.content = functions.map some := by
  simp only [elementPatch, Option.bind_eq_bind, Option.bind_eq_some_iff,
    Option.pure_def, Option.some.injEq] at h
  obtain ⟨offset, hoffset, addr, haddr, functions, hfunctions, rfl⟩ := h
  exact ⟨hoffset, haddr, functions, hfunctions, rfl⟩

theorem dataPatch_eq_some
    {d : DataSegment} {p : Patch UInt8} (h : s.dataPatch inst d = some p) :
    s.segmentOffset inst d.offset = some p.offset ∧ dataTarget inst d = some p.addr ∧
      p.content = d.init := by
  simp only [dataPatch, Option.bind_eq_bind, Option.bind_eq_some_iff, Option.pure_def,
    Option.some.injEq] at h
  obtain ⟨offset, hoffset, addr, haddr, rfl⟩ := h
  exact ⟨hoffset, haddr, rfl⟩

theorem exists_elementPatch
    {c : Context} {imports : List ExternType} {e : ElementSegment}
    (hvalid : m.Valid c imports) (hcovers : s.Covers c inst)
    (he : some e ∈ m.elements) :
    ∃ p, s.elementPatch inst e = some p ∧ p.addr.toNat < s.tables.size := by
  obtain ⟨_, expr, ⟨⟩, htable, hexpr, hconst, hinit⟩ := hvalid.elements _ he
  obtain ⟨offset, hoffset⟩ := hcovers.exists_segmentOffset hconst
  obtain ⟨addr, haddr, hlt⟩ := hcovers.exists_addr .table rfl htable
  have hfunctions : inst.functions.length = c.functions.length :=
    hcovers.length .func _ rfl
  obtain ⟨functions, hinit⟩ : ∃ functions, e.init.mapM
      (fun index => inst.functions[index.toNat]?) = some functions :=
    exists_mapM fun index hindex =>
      ⟨_, List.getElem?_eq_getElem (hfunctions ▸ hinit index hindex)⟩
  rw [← hexpr] at hoffset
  have haddr : elementTarget inst e = some addr := haddr
  exact ⟨{ addr, offset, content := functions.map some }, by simp [elementPatch,
    hoffset, haddr, hinit], hlt⟩

theorem exists_dataPatch
    {c : Context} {imports : List ExternType} {d : DataSegment}
    (hvalid : m.Valid c imports) (hcovers : s.Covers c inst) (hd : some d ∈ m.data) :
    ∃ p, s.dataPatch inst d = some p ∧ p.addr.toNat < s.memories.size := by
  obtain ⟨_, expr, ⟨⟩, hmemory, hexpr, hconst⟩ := hvalid.data _ hd
  obtain ⟨offset, hoffset⟩ := hcovers.exists_segmentOffset hconst
  obtain ⟨addr, haddr, hlt⟩ := hcovers.exists_addr .memory rfl hmemory
  rw [← hexpr] at hoffset
  have haddr : dataTarget inst d = some addr := haddr
  exact ⟨{ addr, offset, content := d.init }, by simp [dataPatch, hoffset, haddr], hlt⟩

/-! ## One segment -/

theorem overlays_fillSlots
    {functions init addrs : List UInt32} {slots slots' : Array (Option UInt32)}
    {slot : UInt32} (hcount : slots.size < UInt32.size)
    (haddrs : init.mapM (fun index => functions[index.toNat]?) = some addrs)
    (h : fillSlots functions slots slot init = some slots') :
    Overlays slots slot.toNat (addrs.map some) slots' := by
  induction init generalizing slots slot addrs with
  | nil =>
      obtain rfl : [] = addrs := by simpa using haddrs
      obtain rfl := Option.some.inj h
      intro i
      rw [if_neg (by simp)]
  | cons index rest ih =>
      simp only [List.mapM_cons, Option.bind_eq_bind, Option.bind_eq_some_iff,
        Option.pure_def, Option.some.injEq] at haddrs
      obtain ⟨addr, haddr, others, hothers, rfl⟩ := haddrs
      simp only [fillSlots, haddr, Option.bind_eq_bind, Option.bind_some] at h
      split at h
      · rename_i hslot
        have hnext : (slot + 1).toNat = slot.toNat + 1 := by
          rw [UInt32.toNat_add, UInt32.toNat_one,
            Nat.mod_eq_of_lt (by rw [UInt32.size] at hcount; omega)]
        have hrest := ih (by simpa using hcount) hothers h
        rw [hnext] at hrest
        exact .cons hslot hrest
      · cases h

/-- Another store differs in what its tables and memories hold, and in nothing else. -/
structure Rewrites (s s' : Store) : Prop where
  rest : s' = { s with tables := s'.tables, memories := s'.memories }
  tableCount : s'.tables.size = s.tables.size
  memoryCount : s'.memories.size = s.memories.size
  tables : Kept TableInst.Refills s.tables s'.tables
  memories : Kept MemInst.Refills s.memories s'.memories

namespace Rewrites

theorem refl (s : Store) : s.Rewrites s :=
  ⟨rfl, rfl, rfl, .refl .refl, .refl .refl⟩

theorem setTable
    {addr : UInt32} {table : TableInst} {slots : Array (Option UInt32)}
    (h : s.Rewrites t) (htable : t.tables[addr.toNat]? = some table)
    (hsize : slots.size = table.slots.size) :
    s.Rewrites (t.setTable addr { table with slots }) where
  rest := by rw [Store.setTable, h.rest]
  tableCount := by rw [Store.setTable, Array.size_setIfInBounds, h.tableCount]
  memoryCount := h.memoryCount
  tables := h.tables.trans (fun _ _ _ => .trans) (.set .refl htable ⟨rfl, hsize⟩)
  memories := h.memories

theorem setMemory
    {addr : UInt32} {memory : MemInst} {bytes : Array UInt8} (h : s.Rewrites t)
    (hmemory : t.memories[addr.toNat]? = some memory)
    (hsize : bytes.size = memory.bytes.size) :
    s.Rewrites (t.setMemory addr { memory with bytes }) where
  rest := by rw [Store.setMemory, h.rest]
  tableCount := h.tableCount
  memoryCount := by rw [Store.setMemory, Array.size_setIfInBounds, h.memoryCount]
  tables := h.tables
  memories := h.memories.trans (fun _ _ _ => .trans) (.set .refl hmemory ⟨rfl, hsize⟩)

theorem segmentOffset_eq
    (h : s.Rewrites t) (offset : Option ConstExpr) :
    t.segmentOffset inst offset = s.segmentOffset inst offset := by
  have hglobals : t.globals = s.globals := by rw [h.rest]
  have hsizes : s.SameSizes t :=
      ⟨hglobals, fun i a ha => (h.tables i a ha).imp fun _ hb => ⟨hb.1, hb.2.2⟩,
    fun i a ha => (h.memories i a ha).imp fun _ hb => ⟨hb.1, hb.2.2⟩⟩
  exact hsizes.segmentOffset_eq offset

end Rewrites

/-- Writing an element segment writes its patch, whatever the segments before it have
written. -/
theorem applyElement_writes
    {e : ElementSegment} {p : Patch (Option UInt32)}
    (hp : s.elementPatch inst e = some p) (hsized : s.Sized) (ht : s.Rewrites t)
    (h : t.applyElement inst (some e) = some t') :
    s.Rewrites t' ∧ t'.memories = t.memories ∧ ∀ i j,
      t'.slotAt i j = (p.cell i j).or (t.slotAt i j) := by
  obtain ⟨hoffset, haddr, functions, hfunctions, hcontent⟩ := elementPatch_eq_some hp
  simp only [applyElement, ht.segmentOffset_eq, hoffset, haddr, Option.bind_eq_bind,
    Option.bind_some, Option.bind_eq_some_iff, Option.pure_def, Option.some.injEq] at h
  obtain ⟨table, htable, slots, hslots, rfl⟩ := h
  have hlt : p.addr.toNat < s.tables.size :=
    ht.tableCount ▸ (Array.getElem?_eq_some_iff.mp htable).1
  obtain ⟨table', htable', hrefills⟩ := ht.tables _ _ (Array.getElem?_eq_getElem hlt)
  obtain rfl := Option.some.inj (htable.symm.trans htable')
  have hcount : table.slots.size < UInt32.size :=
    hrefills.2 ▸ hsized.tables _ (Array.getElem_mem hlt)
  have hoverlays := overlays_fillSlots hcount hfunctions hslots
  rw [← hcontent] at hoverlays
  exact ⟨ht.setTable htable (fillSlots_eq_some hslots).1, rfl,
    cellAt_setIfInBounds htable hoverlays⟩

/-- Writing a data segment that fits writes its patch, whatever the segments before it
have written. -/
theorem applyData_writes
    {d : DataSegment} {p : Patch UInt8} (hp : s.dataPatch inst d = some p)
    (hfits : ∀ memory, s.memories[p.addr.toNat]? = some memory →
      p.offset.toNat + p.content.length ≤ memory.bytes.size)
    (ht : s.Rewrites t) (h : t.applyData inst (some d) = some t') :
    s.Rewrites t' ∧ t'.tables = t.tables ∧ ∀ i j,
      t'.byteAt i j = (p.cell i j).or (t.byteAt i j) := by
  obtain ⟨hoffset, haddr, hcontent⟩ := dataPatch_eq_some hp
  simp only [applyData, ht.segmentOffset_eq, hoffset, haddr, Option.bind_eq_bind,
    Option.bind_some, Option.bind_eq_some_iff, Option.pure_def] at h
  obtain ⟨memory, hmemory, hwrite⟩ := h
  have hlt : p.addr.toNat < s.memories.size :=
    ht.memoryCount ▸ (Array.getElem?_eq_some_iff.mp hmemory).1
  obtain ⟨memory', hmemory', hrefills⟩ :=
    ht.memories _ _ (Array.getElem?_eq_getElem hlt)
  obtain rfl := Option.some.inj (hmemory.symm.trans hmemory')
  have hfit : p.offset.toNat + p.content.length ≤ memory.bytes.size :=
    hrefills.2 ▸ hfits _ (Array.getElem?_eq_getElem hlt)
  rw [if_pos (by omega), Option.some.injEq, ← hcontent] at hwrite
  subst hwrite
  exact ⟨ht.setMemory hmemory (size_overwrite _ _ _), rfl,
    cellAt_setIfInBounds hmemory (overlays_overwrite hfit)⟩

theorem checkElementSegment_eq_ok_iff
    {e : ElementSegment} {p : Patch (Option UInt32)} {table : TableInst} (index : Nat)
    (hp : s.elementPatch inst e = some p)
    (htable : s.tables[p.addr.toNat]? = some table)
    (hcount : table.slots.size < UInt32.size) :
    s.checkElementSegment inst index (some e) = .ok () ↔
      p.offset.toNat + p.content.length ≤ table.slots.size := by
  obtain ⟨hoffset, haddr, functions, hfunctions, hcontent⟩ := elementPatch_eq_some hp
  have hlength : p.content.length = e.init.length := by
    rw [hcontent, List.length_map, (mapM_eq_some_iff.mp hfunctions).length_eq]
  have hsize : table.size.toNat = table.slots.size := UInt32.toNat_ofNat_of_lt' hcount
  simp only [checkElementSegment, hoffset, haddr, htable, Attempt.bind_eq_ok,
    Attempt.present_eq_ok, Option.some.injEq, Attempt.require_eq_ok, decide_eq_true_eq,
    exists_eq_left', hsize, hlength]

theorem checkDataSegment_eq_ok_iff
    {d : DataSegment} {p : Patch UInt8} {memory : MemInst} (index : Nat)
    (hp : s.dataPatch inst d = some p)
    (hmemory : s.memories[p.addr.toNat]? = some memory)
    (hlength : d.init.length < 2 ^ 63) (hbytes : memory.bytes.size < 2 ^ 64) :
    s.checkDataSegment inst index (some d) = .ok () ↔
      p.offset.toNat + p.content.length ≤ memory.bytes.size := by
  obtain ⟨hoffset, haddr, hcontent⟩ := dataPatch_eq_some hp
  have hlt := p.offset.toNat_lt
  have hcount : (UInt64.ofNat d.init.length).toNat = d.init.length :=
    UInt64.toNat_ofNat_of_lt' (by rw [UInt64.size]; omega)
  have hsum : p.offset.toUInt64.toNat + (UInt64.ofNat d.init.length).toNat <
      2 ^ 64 := by
    rw [UInt32.toNat_toUInt64, hcount]
    omega
  simp only [checkDataSegment, hoffset, haddr, hmemory, Attempt.bind_eq_ok,
    Attempt.present_eq_ok, Option.some.injEq, Attempt.require_eq_ok, exists_eq_left',
    MemInst.hasSize_iff hsum hbytes,
    UInt32.toNat_toUInt64, hcount, hcontent]

/-! ## All segments -/

section All

variable {c : Context} {imports : List ExternType}
  {elements : List (Patch (Option UInt32))} {data : List (Patch UInt8)}

theorem exists_hasPatches
    (hvalid : m.Valid c imports) (hcovers : s.Covers c inst) :
    ∃ elements data, s.HasPatches inst m elements data := by
  have helements : ∃ elements,
      m.elements.mapM (·.bind (s.elementPatch inst)) = some elements := by
    refine exists_mapM fun entry hentry => ?_
    obtain ⟨e, _, rfl, -⟩ := hvalid.elements entry hentry
    obtain ⟨p, hp, -⟩ := exists_elementPatch hvalid hcovers hentry
    exact ⟨p, hp⟩
  have hdata : ∃ data, m.data.mapM (·.bind (s.dataPatch inst)) = some data := by
    refine exists_mapM fun entry hentry => ?_
    obtain ⟨d, _, rfl, -⟩ := hvalid.data entry hentry
    obtain ⟨p, hp, -⟩ := exists_dataPatch hvalid hcovers hentry
    exact ⟨p, hp⟩
  obtain ⟨elements, helements⟩ := helements
  obtain ⟨data, hdata⟩ := hdata
  exact ⟨elements, data, helements, hdata⟩

/-- Some segment does not fit the table or the memory that it is meant for. -/
def PatchesOverrun (s : Store) (elements : List (Patch (Option UInt32)))
    (data : List (Patch UInt8)) : Prop :=
  Patch.Overrun TableInst.slots s.tables elements ∨
    Patch.Overrun MemInst.bytes s.memories data

theorem checkSegments_eq_ok_iff
    (hvalid : m.Valid c imports) (hcovers : s.Covers c inst) (hsized : s.Sized)
    (hcountable : m.HasCountableData) (hpatches : s.HasPatches inst m elements data) :
    s.checkSegments inst m = .ok () ↔ ¬s.PatchesOverrun elements data := by
  have helements : Attempt.forEach (s.checkElementSegment inst) 0 m.elements = .ok () ↔
      ¬Patch.Overrun TableInst.slots s.tables elements := by
    refine forEach_eq_ok_iff_of_checks (mapM_eq_some_iff.mp hpatches.elements)
      fun index entry hentry p hp => ?_
    obtain ⟨e, rfl, hp⟩ := Option.bind_eq_some_iff.mp hp
    obtain ⟨_, hp', hlt⟩ := exists_elementPatch hvalid hcovers hentry
    obtain rfl := Option.some.inj (hp.symm.trans hp')
    have hcount := hsized.tables _ (Array.getElem_mem hlt)
    have htable := Array.getElem?_eq_getElem hlt
    exact ⟨_, htable, checkElementSegment_eq_ok_iff index hp htable hcount⟩
  have hdata : Attempt.forEach (s.checkDataSegment inst) 0 m.data = .ok () ↔
      ¬Patch.Overrun MemInst.bytes s.memories data := by
    refine forEach_eq_ok_iff_of_checks (mapM_eq_some_iff.mp hpatches.data)
      fun index entry hentry p hp => ?_
    obtain ⟨d, rfl, hp⟩ := Option.bind_eq_some_iff.mp hp
    obtain ⟨_, hp', hlt⟩ := exists_dataPatch hvalid hcovers hentry
    obtain rfl := Option.some.inj (hp.symm.trans hp')
    have hwf := hsized.memories _ (Array.getElem_mem hlt)
    have hbytes : s.memories[p.addr.toNat].bytes.size < 2 ^ 64 := by
      have hpages := s.memories[p.addr.toNat].pages.toNat_lt
      rw [hwf.size]
      omega
    have hmemory := Array.getElem?_eq_getElem hlt
    exact ⟨_, hmemory, checkDataSegment_eq_ok_iff index hp hmemory
      (hcountable d hentry) hbytes⟩
  rw [checkSegments, Attempt.bind_eq_ok, PatchesOverrun, not_or, ← helements, ← hdata]
  constructor
  · rintro ⟨_, h⟩
    exact h
  · exact fun h => ⟨(), h⟩

/-- The check fails if and only if there is an overrun, and for no other reason. -/
theorem checkSegments_fails_iff
    (hvalid : m.Valid c imports) (hcovers : s.Covers c inst) (hsized : s.Sized)
    (hcountable : m.HasCountableData) (hpatches : s.HasPatches inst m elements data) :
    (∃ cause, s.checkSegments inst m = .error (.cause cause)) ↔
      s.PatchesOverrun elements data := by
  rw [← not_iff_not, ← checkSegments_eq_ok_iff hvalid hcovers hsized
    hcountable hpatches]
  cases hresult : s.checkSegments inst m with
  | ok => simp
  | error failure =>
      cases failure with
      | cause cause => simp
      | crash => exact absurd hresult (safe_checkSegments hvalid hcovers)

/-- Another store is what patches make of a store: each slot and each byte holds what
the last patch that covers it has for it, or else what it held before, and nothing else
differs. -/
structure Patched (s : Store) (elements : List (Patch (Option UInt32)))
    (data : List (Patch UInt8)) (s' : Store) : Prop extends s.Rewrites s' where
  slots : ∀ i j, s'.slotAt i j = (lastCell elements i j).or (s.slotAt i j)
  bytes : ∀ i j, s'.byteAt i j = (lastCell data i j).or (s.byteAt i j)

theorem patched_of_applySegments
    {s' : Store} (hpatches : s.HasPatches inst m elements data) (hsized : s.Sized)
    (hfits : ¬Patch.Overrun MemInst.bytes s.memories data)
    (h : s.applySegments inst m = some s') :
    s.Patched elements data s' := by
  simp only [applySegments, Option.bind_eq_bind, Option.bind_eq_some_iff] at h
  obtain ⟨middle, helements, hdata⟩ := h
  -- Elements leave the memories alone, and data leaves the tables as the elements have
  -- made them.
  have hfirst : (s.Rewrites middle ∧ middle.memories = s.memories) ∧
      ∀ i j, middle.slotAt i j = (lastCell elements i j).or (s.slotAt i j) := by
    refine lastCell_of_foldlM (P := fun t => s.Rewrites t ∧ t.memories = s.memories)
      (mapM_eq_some_iff.mp hpatches.elements) ?_ ⟨.refl s, rfl⟩ helements
    rintro entry - p - t t' hp ⟨ht, hmemories⟩ happly
    obtain ⟨e, rfl, hp⟩ := Option.bind_eq_some_iff.mp hp
    obtain ⟨ht', hkept, hslots⟩ := applyElement_writes hp hsized ht happly
    exact ⟨⟨ht', hkept.trans hmemories⟩, hslots⟩
  obtain ⟨⟨hmiddle, hmemories⟩, hslots⟩ := hfirst
  have hsecond : (s.Rewrites s' ∧ s'.tables = middle.tables) ∧
      ∀ i j, s'.byteAt i j = (lastCell data i j).or (middle.byteAt i j) := by
    refine lastCell_of_foldlM (P := fun t => s.Rewrites t ∧ t.tables = middle.tables)
      (mapM_eq_some_iff.mp hpatches.data) ?_ ⟨hmiddle, rfl⟩ hdata
    rintro entry - p hmem t t' hp ⟨ht, htables⟩ happly
    obtain ⟨d, rfl, hp⟩ := Option.bind_eq_some_iff.mp hp
    have hfit (memory : MemInst) (hmemory : s.memories[p.addr.toNat]? = some memory) :
        p.offset.toNat + p.content.length ≤ memory.bytes.size :=
      Nat.le_of_not_lt fun hsize => hfits ⟨p, hmem, memory, hmemory, hsize⟩
    obtain ⟨ht', hkept, hbytes⟩ := applyData_writes hp hfit ht happly
    exact ⟨⟨ht', hkept.trans htables⟩, hbytes⟩
  obtain ⟨⟨hrewrites, htables⟩, hbytes⟩ := hsecond
  have hslots' (i j : Nat) : s'.slotAt i j = middle.slotAt i j := by
    rw [slotAt, slotAt, htables]
  have hbytes' (i j : Nat) : middle.byteAt i j = s.byteAt i j := by
    rw [byteAt, byteAt, hmemories]
  exact {
    hrewrites with
    slots := fun i j => (hslots' i j).trans (hslots i j)
    bytes := fun i j => (hbytes i j).trans (by rw [hbytes']) }

/-- Whatever a store held is still there, but for the tables and memories that patches
are written into. -/
structure Spares (s : Store) (elements : List (Patch (Option UInt32)))
    (data : List (Patch UInt8)) (s' : Store) : Prop where
  functions : ∀ i < s.functions.size, s'.functions[i]? = s.functions[i]?
  tables : ∀ i < s.tables.size, (∀ p ∈ elements, p.addr.toNat ≠ i) →
    s'.tables[i]? = s.tables[i]?
  memories : ∀ i < s.memories.size, (∀ p ∈ data, p.addr.toNat ≠ i) →
    s'.memories[i]? = s.memories[i]?
  globals : ∀ i < s.globals.size, s'.globals[i]? = s.globals[i]?
  modules : ∀ i < s.modules.size, s'.modules[i]? = s.modules[i]?

theorem Covers.start_ne_none
    {features : Features} {index : UInt32}
    (hcovers : s.Covers (.ofModule m features) inst)
    (hvalid : m.Valid (.ofModule m features) imports) (hstart : m.start = some index) :
    inst.functions[index.toNat]? ≠ none := by
  obtain ⟨addr, haddr, -⟩ := hcovers.exists_addr .func rfl (hvalid.start index hstart)
  have haddr : inst.functions[index.toNat]? = some addr := haddr
  rw [haddr]
  exact Option.some_ne_none addr

theorem Patched.tables_eq
    {s' : Store} {i : Nat} (h : s.Patched elements data s')
    (hi : ∀ p ∈ elements, p.addr.toNat ≠ i) :
    s'.tables[i]? = s.tables[i]? := by
  refine @getElem?_eq_of_cellAt _ _ TableInst.slots _ _ _ i h.tableCount h.tables ?_
    fun j => ?_
  · intro a b hab hslots
    rw [hab.1, hslots]
  · have hslot := h.slots i j
    rwa [lastCell_eq_none hi, Option.none_or] at hslot

theorem Patched.memories_eq
    {s' : Store} {i : Nat} (h : s.Patched elements data s')
    (hi : ∀ p ∈ data, p.addr.toNat ≠ i) :
    s'.memories[i]? = s.memories[i]? := by
  refine @getElem?_eq_of_cellAt _ _ MemInst.bytes _ _ _ i h.memoryCount h.memories ?_
    fun j => ?_
  · intro a b hab hbytes
    rw [hab.1, hbytes]
  · have hbyte := h.bytes i j
    rwa [lastCell_eq_none hi, Option.none_or] at hbyte

/-- An instantiation spares what was in the store before it. -/
theorem Patched.spares
    {allocated s' : Store} {added : Additions} (h : allocated.Patched elements data s')
    (hadds : s.Adds m name externs allocated added inst) :
    s.Spares elements data s' := by
  have hrest := h.rest
  have hallocated := hadds.store
  constructor
  · intro i hi
    rw [hrest, hallocated]
    exact getElem?_append_list_of_lt hi
  · intro i hi hspared
    rw [h.tables_eq hspared, hallocated]
    exact getElem?_append_list_of_lt hi
  · intro i hi hspared
    rw [h.memories_eq hspared, hallocated]
    exact getElem?_append_list_of_lt hi
  · intro i hi
    rw [hrest, hallocated]
    exact getElem?_append_list_of_lt hi
  · intro i hi
    rw [hrest, hallocated]
    exact (Array.getElem?_push_lt hi).trans (Array.getElem?_eq_getElem hi).symm

end All

end Store

namespace Engine

variable {s t : Session} {m : Option Module} {name : String} {externs : List ExternVal}
  {inst : ModuleInst} {inherited : ContextRef} {choice : ContextChoice}

theorem perform_instantiate_of_starting
    {function : UInt32}
    (h : Operation.prepare m name externs (s.openContext inherited choice).2 =
      .ok (inst, some function) t)
    (bound : Nat) :
    perform (bound + 1) inherited (.instantiate m name externs choice) s =
      Operation.conclude (.start name s.store.modules.size inst)
        (invoke bound (s.openContext inherited choice).1 function [] t) := by
  rw [perform_instantiate_of_prepared h]
  exact runStart_bind_eq_conclude name s.store.modules.size inst
    (invoke bound (s.openContext inherited choice).1 function []) t

/-- What follows the writing of segments: an instance without a start function is given
back, and otherwise the start function is invoked if there is an engine. -/
structure Continues (s : Session) (m : Module) (name : String)
    (externs : List ExternVal) (inst : ModuleInst) (inherited : ContextRef)
    (choice : ContextChoice) (t : Session) : Prop where
  complete : m.start = none → ∀ bound,
    perform (bound + 1) inherited (.instantiate (some m) name externs choice) s =
      .ok (.module inst) t
  start : ∀ index, m.start = some index → t.store.engine ≠ none → ∃ function,
    inst.functions[index.toNat]? = some function ∧ ∀ bound,
      perform (bound + 1) inherited (.instantiate (some m) name externs choice) s =
        Operation.conclude (.start name s.store.modules.size inst)
          (invoke bound (s.openContext inherited choice).1 function [] t)
  noEngine : m.start ≠ none → t.store.engine = none → ∀ bound,
    perform (bound + 1) inherited (.instantiate (some m) name externs choice) s =
      .error (.instantiation name .noEngine) t

theorem continues_of_prepared
    {module : Module} {applied : Store}
    (h : Operation.Prepared (s.openContext inherited choice).2 name module inst
      applied (Operation.prepare (some module) name externs
        (s.openContext inherited choice).2))
    (hinst : applied.modules[s.store.modules.size]? = some inst) :
    ∃ t, s.ComesTo applied t ∧ Continues s module name externs inst inherited
      choice t := by
  have hopened := Session.ComesTo.openContext s inherited choice
  generalize hprepare : Operation.prepare (some module) name externs
    (s.openContext inherited choice).2 = result at h
  cases h with
  | @complete t hstart ht =>
      refine ⟨t, hopened.trans ht, fun _ =>
        ?_, by simp [hstart], fun hsome => absurd hstart hsome⟩
      exact perform_instantiate_of_complete hprepare (ht.store ▸ hinst)
  | @starting index function t hstart hfunction hengine ht =>
      refine ⟨t, hopened.trans
        ht, by simp [hstart], ?_, fun _ hnone => absurd (ht.store ▸ hnone) hengine⟩
      intro index' hindex _
      obtain rfl := Option.some.inj (hstart.symm.trans hindex)
      exact ⟨function, hfunction, perform_instantiate_of_starting hprepare⟩
  | @noEngine index t hstart hengine ht =>
      refine ⟨t, hopened.trans ht, by simp [hstart], ?_, fun _ _ => ?_⟩
      · exact fun _ _ hsome => absurd (ht.store ▸ hengine) hsome
      · exact perform_instantiate_of_prepare hprepare

end Engine

namespace Session

end Session

/-- A module with overlapping segments for a table that it imports, one of them at the
offset of an imported global and one of them empty, and for a memory of its own. -/
def Module.layers : Module where
  types := [some ⟨[], []⟩]
  imports := [some ⟨"host", "table", .table (some ⟨TableType.funcref, some ⟨3, none⟩⟩)⟩,
    some ⟨"host", "one", .global (some ⟨.i32, false⟩)⟩]
  functions := [0, 0]
  memories := [some ⟨1, none⟩]
  code := [some ⟨[], []⟩, some ⟨[], []⟩]
  elements := [some ⟨0, some (.const .i32 0), [0, 0, 1]⟩,
    some ⟨0, some (.globalGet 0), [1]⟩, some ⟨0, some (.const .i32 4), []⟩]
  data := [some ⟨0, some (.const .i32 65534), [7, 8]⟩,
    some ⟨0, some (.const .i32 65535), [9]⟩]

namespace Session

/-- A session with a table of four slots and a global whose value is one. -/
def bare : Session :=
  ((({ store := ({} : Config).newStore false } : Session).step 1
    (.allocTable (some ⟨TableType.funcref, some ⟨4, none⟩⟩))).2.step 1
      (.allocGlobal (some ⟨.i32, false⟩) (.ofU32 1))).2

theorem reachable_bare : bare.Reachable .trivial False := by
  refine ((reachable_newStore _ _).step 1 (.plain ?_)).step 1 (.allocGlobal trivial)
  exact trivial

/-- What the element segments of the layers write. -/
def layerSlots : List (Patch (Option UInt32)) :=
  [⟨0, 0, [some 0, some 0, some 1]⟩, ⟨0, 1, [some 1]⟩, ⟨0, 4, []⟩]

/-- What the data segments of the layers write. -/
def layerBytes : List (Patch UInt8) :=
  [⟨0, 65534, [7, 8]⟩, ⟨0, 65535, [9]⟩]

theorem bare_admits_layers :
    ∃ imports allocated inst, bare.store.Admits .layers "layers" [⟨.table, 0⟩,
      ⟨.global, 0⟩] imports allocated inst ∧
      allocated.slotAt 0 3 = some none ∧
      allocated.tables[0]?.map (·.slots.size) = some 4 ∧
      allocated.memories[0]?.map (·.limits.min) = some 1 ∧
      allocated.HasPatches inst .layers layerSlots layerBytes := by
  have hruns : ((Module.layers.validate bare.store.features).toOption.any fun imports =>
      (bare.store.link imports [⟨.table, 0⟩, ⟨.global, 0⟩]).toOption == some () &&
      (bare.store.checkMemories .layers).toOption == some () &&
      (bare.store.allocate .layers "layers" [⟨.table, 0⟩, ⟨.global, 0⟩]).any
        fun result =>
        result.1.slotAt 0 3 == some none &&
        result.1.tables[0]?.map (·.slots.size) == some 4 &&
        result.1.memories[0]?.map (·.limits.min) == some 1 &&
        Module.layers.elements.mapM (·.bind (result.1.elementPatch result.2)) ==
          some layerSlots &&
        Module.layers.data.mapM (·.bind (result.1.dataPatch result.2)) ==
          some layerBytes) = true := by decide +kernel
  simp only [Option.any_eq_true, Bool.and_eq_true, beq_iff_eq,
    Attempt.toOption_eq_some] at hruns
  obtain ⟨imports, hvalid, ⟨hlink, hmemories⟩, ⟨allocated, inst⟩, hallocate,
    ⟨⟨⟨hslot, htable⟩, hmemory⟩, helements⟩, hdata⟩ := hruns
  exact ⟨imports, allocated, inst, ⟨hvalid, hlink, hmemories, hallocate⟩, hslot, htable,
    hmemory, helements, hdata⟩

theorem layers_fit
    {s : Store} (hsized : s.Sized) (htable : s.tables[0]?.map (·.slots.size) = some 4)
    (hmemory : s.memories[0]?.map (·.limits.min) = some 1) :
    ¬s.PatchesOverrun layerSlots layerBytes := by
  rintro (⟨p, hp, t, ht, hsize⟩ | ⟨p, hp, memory, hm, hsize⟩)
  · have hend : p.addr.toNat = 0 ∧ p.offset.toNat + p.content.length ≤ 4 := by
      simp only [layerSlots, List.mem_cons, List.not_mem_nil, or_false] at hp
      rcases hp with rfl | rfl | rfl <;> decide
    rw [hend.1] at ht
    rw [ht, Option.map_some, Option.some.injEq] at htable
    omega
  · have hend : p.addr.toNat = 0 ∧ p.offset.toNat + p.content.length ≤ 65536 := by
      simp only [layerBytes, List.mem_cons, List.not_mem_nil, or_false] at hp
      rcases hp with rfl | rfl <;> decide
    rw [hend.1] at hm
    rw [hm, Option.map_some, Option.some.injEq] at hmemory
    -- The page is too large to be evaluated, but its size follows from the limits of
    -- the memory.
    have hwf := hsized.memories memory (Array.mem_of_getElem? hm)
    have hmin := UInt32.le_iff_toNat_le.mp hwf.min_le
    rw [hmemory, UInt32.toNat_one] at hmin
    have hbytes := hwf.size
    omega

end Session

end WebAssembly
