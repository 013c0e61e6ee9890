import WebAssembly.Proofs.Preparation
import WebAssembly.Proofs.Validity

/-!
# Linked modules

A module that is valid and linked has a context, and its instance has an address for
every index that the context lists.  So nothing is missing when the module is prepared,
and once addresses suffice the instances that it refers to have the types that the
context says.
-/

namespace WebAssembly

def ModuleInst.addrs (inst : ModuleInst) : ExternKind → List UInt32
  | .func => inst.functions
  | .table => inst.tables
  | .memory => inst.memories
  | .global => inst.globals
  | .reserved _ => []

namespace Store

/-- The store has, under an extern value, what the description of an import asks for. -/
def Supplies (s : Store) (m : Module) (desc : ImportDesc) (val : ExternVal) : Prop :=
  ∃ type, m.ImportHasType desc type ∧ s.Provides type val

def FunctionAt (s : Store) (types : List (Option FuncType))
    (index addr : UInt32) : Prop :=
  ∃ f type, s.functions[addr.toNat]? = some f ∧ f.type = some type ∧
    types[index.toNat]? = some (some type)

def GlobalAt (s : Store) (type : Option GlobalType) (addr : UInt32) : Prop :=
  ∃ g, s.globals[addr.toNat]? = some g ∧ type = some g.type

section Imports

variable {s : Store} {m : Module} {c : Context} {imports : List ExternType}
  {externs : List ExternVal}

theorem supplies_of_link
    (hvalid : m.Valid c imports) (hlink : List.Forall₂ s.Provides imports externs) :
    List.Forall₂ (s.Supplies m) m.importDescs externs := by
  have himports := Module.forall₂_importDescs hvalid.imports
  clear hvalid
  rw [Module.importDescs]
  generalize m.imports.reduceOption.map Import.desc = descs at himports ⊢
  induction himports generalizing externs with
  | nil =>
      cases hlink
      exact .nil
  | cons hdesc _ ih =>
      cases hlink with
      | cons hprovides hrest => exact .cons ⟨_, hdesc, hprovides⟩ (ih hrest)

theorem Supplies.kind_eq
    {desc : ImportDesc} {val : ExternVal} (h : s.Supplies m desc val) :
    val.kind = desc.kind := by
  obtain ⟨type, hdesc, hprovides⟩ := h
  cases desc <;> cases type <;> first | exact hdesc.elim | exact hprovides.1

/-- The imports of a kind and the addresses that are given for them stand in the same
order. -/
theorem forall₂_externAddrs
    {α : Type} {R : α → UInt32 → Prop} {pick : ImportDesc → Option α}
    {kind : ExternKind} {descs : List ImportDesc}
    (h : List.Forall₂ (s.Supplies m) descs externs)
    (hpick : ∀ desc, pick desc ≠ none ↔ desc.kind = kind)
    (hR : ∀ desc val a, s.Supplies m desc val → pick desc = some a → R a val.addr) :
    List.Forall₂ R (descs.filterMap pick) (externAddrs externs kind) := by
  induction h with
  | nil => exact .nil
  | @cons desc val descs externs hdesc _ ih =>
      unfold externAddrs at ih ⊢
      have hkind := hpick desc
      rw [← hdesc.kind_eq] at hkind
      cases ha : pick desc with
      | none =>
          have hother : val.kind ≠ kind := fun h => hkind.mpr h ha
          simpa [List.filterMap_cons, ha, hother] using ih
      | some a =>
          have hsame : val.kind = kind := hkind.mp (by simp [ha])
          simpa [List.filterMap_cons, ha, hsame] using ⟨hR desc val a hdesc ha, ih⟩

theorem length_externAddrs
    {kind : ExternKind} (h : List.Forall₂ (s.Supplies m) m.importDescs externs) :
    (externAddrs externs kind).length = m.importCount kind := by
  have hpick (desc : ImportDesc) : (if desc.kind = kind then some () else none) ≠ none ↔
      desc.kind = kind := by
    simp
  have haligned := forall₂_externAddrs (R := fun _ _ => True) h hpick
    fun _ _ _ _ _ => trivial
  rw [← haligned.length_eq, Module.length_imported hpick]

theorem forall₂_importedFunctions
    (h : List.Forall₂ (s.Supplies m) m.importDescs externs) :
    List.Forall₂ (s.FunctionAt m.types) (m.importDescs.filterMap ImportDesc.function?)
      (externAddrs externs .func) := by
  refine forall₂_externAddrs h (fun _ => ImportDesc.function?_ne_none) ?_
  rintro desc val index ⟨type, hdesc, hprovides⟩ hpick
  cases desc with
  | func index' =>
      obtain rfl : index' = index := Option.some.inj hpick
      cases type with
      | func type =>
          obtain ⟨hkind, f, hf, htype⟩ := hprovides
          exact ⟨f, type, hf, htype, hdesc⟩
      | _ => exact hdesc.elim
  | _ => cases hpick

theorem forall₂_importedGlobals
    (h : List.Forall₂ (s.Supplies m) m.importDescs externs) :
    List.Forall₂ s.GlobalAt (m.importDescs.filterMap ImportDesc.global?)
      (externAddrs externs .global) := by
  refine forall₂_externAddrs h (fun _ => ImportDesc.global?_ne_none) ?_
  rintro desc val entry ⟨type, hdesc, hprovides⟩ hpick
  cases desc with
  | global entry' =>
      obtain rfl : entry' = entry := Option.some.inj hpick
      cases type with
      | global type =>
          obtain ⟨rfl, -⟩ := hdesc
          obtain ⟨hkind, g, hg, rfl⟩ := hprovides
          exact ⟨g, hg, rfl⟩
      | _ => exact hdesc.elim
  | _ => cases hpick

end Imports

end Store

namespace Module

/-- The number of the module's own definitions of a kind. -/
def ownCount (m : Module) : ExternKind → Nat
  | .func => m.functions.length
  | .table => m.tables.length
  | .memory => m.memories.length
  | .global => m.globals.length
  | .reserved _ => 0

theorem eq_of_spaceSize
    {m : Module} {features : Features} {kind : ExternKind} {size : Nat}
    (h : spaceSize (.ofModule m features) kind = some size) :
    size = m.importCount kind + m.ownCount kind := by
  cases kind with
  | func =>
      obtain rfl := Option.some.inj h
      simp [Context.ofModule, functionSpace_eq, ownCount, length_imported fun _ =>
        ImportDesc.function?_ne_none]
  | table =>
      obtain rfl := Option.some.inj h
      simp [Context.ofModule, tableSpace_eq, ownCount, length_imported fun _ =>
        ImportDesc.table?_ne_none]
  | memory =>
      obtain rfl := Option.some.inj h
      simp [Context.ofModule, memorySpace_eq, ownCount, length_imported fun _ =>
        ImportDesc.memory?_ne_none]
  | global =>
      obtain rfl := Option.some.inj h
      simp [Context.ofModule, globalSpace_eq, ownCount, length_imported fun _ =>
        ImportDesc.global?_ne_none]
  | reserved => cases h

end Module

namespace Store

/-- Each index space of the instance has the size that the context says, and its
addresses are valid. -/
structure Covers (s : Store) (c : Context) (inst : ModuleInst) : Prop where
  length : ∀ kind size, Module.spaceSize c kind = some size →
    (inst.addrs kind).length = size
  range : ∀ kind, ∀ addr ∈ inst.addrs kind, addr.toNat < s.arenaSize kind

theorem Covers.exists_addr
    {s : Store} {c : Context} {inst : ModuleInst} (h : s.Covers c inst)
    (kind : ExternKind) {index size : Nat} (hsize : Module.spaceSize c kind = some size)
    (hindex : index < size) :
    ∃ addr, (inst.addrs kind)[index]? = some addr ∧ addr.toNat < s.arenaSize kind := by
  rw [← h.length kind size hsize] at hindex
  exact ⟨_, List.getElem?_eq_getElem hindex, h.range kind _ (List.getElem_mem hindex)⟩

section Allocated

variable {s : Store} {m : Module} {features : Features} {name : String}
  {imports : List ExternType} {externs : List ExternVal} {inst : ModuleInst}
  {added : Additions}

theorem Allocation.covers
    (h : s.Allocation m name externs inst added)
    (hvalid : m.Valid (.ofModule m features) imports)
    (hlink : List.Forall₂ s.Provides imports externs) :
    (s.extend added).Covers (.ofModule m features) inst where
  length := by
    intro kind size hsize
    have himported := @length_externAddrs s m externs kind
      (supplies_of_link hvalid hlink)
    rw [Module.eq_of_spaceSize hsize, ← himported]
    cases kind with
    | func =>
        simp [ModuleInst.addrs, h.functionAddrs, h.length_functions, Module.ownCount]
    | table => simp [ModuleInst.addrs, h.tableAddrs, h.length_tables, Module.ownCount]
    | memory =>
        simp [ModuleInst.addrs, h.memoryAddrs, h.length_memories, Module.ownCount]
    | global => simp [ModuleInst.addrs, length_of_addGlobals h.globals, Module.ownCount]
    | reserved => cases hsize
  range := by
    intro kind addr haddr
    have hlt (count : Nat) := @lt_of_mem_addrs s externs imports kind count addr hlink
    cases kind with
    | func =>
        simpa [extend, size_append_list, arenaSize] using hlt _
          (h.functionAddrs ▸ haddr)
    | table =>
        simpa [extend, size_append_list, arenaSize] using hlt _ (h.tableAddrs ▸ haddr)
    | memory =>
        simpa [extend, size_append_list, arenaSize] using hlt _ (h.memoryAddrs ▸ haddr)
    | global =>
        simpa [extend, size_append_list, arenaSize] using hlt _ (h.globalAddrs ▸ haddr)
    | reserved => cases haddr

theorem covers_of_allocate
    {s' : Store} (hvalid : m.Valid (.ofModule m features) imports)
    (hlink : List.Forall₂ s.Provides imports externs)
    (halloc : s.allocate m name externs = some (s', inst)) :
    s'.Covers (.ofModule m features) inst := by
  obtain ⟨added, hadded, rfl⟩ := exists_allocation halloc
  have hcovers := hadded.covers hvalid hlink
  exact ⟨hcovers.length, hcovers.range⟩

end Allocated

section Safety

variable {s : Store} {m : Module} {c : Context} {features : Features} {name : String}
  {imports : List ExternType} {externs : List ExternVal} {inst : ModuleInst}

theorem safe_checkExtern
    {type : ExternType} {val : ExternVal} (hs : ∀ f ∈ s.functions, f.type ≠ none)
    (htype : ∀ t, type = .table t → t.limits ≠ none) :
    (s.checkExtern type val).Safe := by
  refine Attempt.safe_require.bind fun _ _ => ?_
  cases type with
  | func type =>
      refine Attempt.safe_ofExcept.mapCause.bind fun f hf =>
        (Attempt.safe_present ?_).bind fun _ _ =>
        Attempt.safe_require
      exact hs f (Array.mem_of_getElem? (mapCause_lookup_eq_ok_iff.mp hf))
  | table type =>
      exact Attempt.safe_ofExcept.mapCause.bind fun _ _ =>
        Attempt.safe_require.bind fun _ _ =>
        (Attempt.safe_present (htype type rfl)).bind fun _ _ => Attempt.safe_require
  | memory limits =>
      exact Attempt.safe_ofExcept.mapCause.bind fun _ _ => Attempt.safe_require
  | global type =>
      exact Attempt.safe_ofExcept.mapCause.bind fun _ _ =>
        Attempt.safe_require.bind fun _ _ =>
        Attempt.safe_require

theorem safe_link
    (hvalid : m.Valid c imports) (hs : ∀ f ∈ s.functions, f.type ≠ none) :
    (s.link imports externs).Safe := by
  refine Attempt.safe_require.bind fun _ _ => Attempt.safe_forEach
    fun i entry hentry _ => ?_
  refine (safe_checkExtern hs ?_).mapCause
  intro t ht
  have hmem : entry.1 ∈ imports := (List.of_mem_zip (List.mem_of_getElem? hentry)).1
  obtain ⟨_, -, i, -, htype⟩ := exists_of_mem_right hvalid.imports hmem
  rw [ht] at htype
  cases hdesc : i.desc with
  | table type =>
      rw [hdesc] at htype
      exact htype.2
  | _ =>
      rw [hdesc] at htype
      exact htype.elim

theorem safe_checkMemoryType {limits : Option Limits} :
    (s.checkMemoryType limits).Safe := by
  refine Limits.safe_check.bind fun _ hcheck =>
    (Attempt.safe_present ?_).bind fun _ _ =>
    Attempt.safe_require.bind fun _ _ => Attempt.safe_ok
  obtain ⟨l, rfl, -⟩ := Limits.check_eq_ok_iff.mp hcheck
  simp

theorem safe_checkMemories : (s.checkMemories m).Safe :=
  safe_checkEntries fun _ _ _ _ => safe_checkMemoryType.bind fun _ _ => Attempt.safe_ok

theorem exists_evalConst
    {addrs : List UInt32} {type : ValueType} {expr : ConstExpr}
    (haddrs : ∀ addr ∈ addrs, addr.toNat < s.globals.size)
    (h : c.ConstHasType addrs.length type expr) :
    ∃ v, s.evalConst addrs expr = some v := by
  cases expr with
  | const number bits => exact ⟨_, rfl⟩
  | globalGet index =>
      obtain ⟨hindex, -⟩ := h
      have hlt := haddrs _ (List.getElem_mem hindex)
      refine ⟨(s.globals[(addrs[index.toNat]).toNat]).value, ?_⟩
      simp [evalConst, hindex, hlt]
  | other => exact h.elim

theorem exists_addGlobals
    {addrs : List UInt32} {entries : List (Option Global)}
    (haddrs : ∀ addr ∈ addrs, addr.toNat < s.globals.size)
    (hentries : ∀ (i : Nat) entry, entries[i]? = some entry → ∃ global type init,
      entry = some global ∧ global.type = some type ∧ global.init = some init ∧
      c.ConstHasType (addrs.length + i) type.value init) :
    ∃ result, s.addGlobals addrs entries = some result := by
  induction entries generalizing s addrs with
  | nil => exact ⟨_, rfl⟩
  | cons entry rest ih =>
      obtain ⟨global, type, init, rfl, htype, hinit, hconst⟩ := hentries 0 entry rfl
      obtain ⟨value, hvalue⟩ := exists_evalConst haddrs hconst
      have hnext : ∀ addr ∈ addrs ++ [s.nextGlobal],
          addr.toNat < (s.addGlobal { type, value }).globals.size := by
        intro addr haddr
        rw [addGlobal, Array.size_push]
        rcases List.mem_append.mp haddr with hold | hnew
        · exact Nat.lt_succ_of_lt (haddrs addr hold)
        · obtain rfl := List.mem_singleton.mp hnew
          rw [nextGlobal, UInt32.toNat_ofNat']
          exact Nat.lt_succ_of_le (Nat.mod_le _ _)
      obtain ⟨⟨s', addrs'⟩, hrest⟩ := ih hnext fun i entry hentry => by
        have := hentries (i + 1) entry hentry
        simpa [Nat.add_assoc, Nat.add_comm 1 i] using this
      exact ⟨(s', addrs'), addGlobals_cons_eq_some_iff.mpr
        ⟨global, init, value, type, rfl, hinit, hvalue, htype, hrest⟩⟩

theorem exists_mapM
    {α β : Type} {f : α → Option β} {entries : List α}
    (h : ∀ a ∈ entries, ∃ b, f a = some b) :
    ∃ results, entries.mapM f = some results := by
  induction entries with
  | nil => exact ⟨[], rfl⟩
  | cons a rest ih =>
      obtain ⟨b, hb⟩ := h a List.mem_cons_self
      obtain ⟨bs, hbs⟩ := ih fun a ha => h a (List.mem_cons_of_mem _ ha)
      exact ⟨b :: bs, by simp [hb, hbs]⟩

theorem exists_newFunctions
    {addr : UInt32} {exports : List Export} {imported : Nat}
    (hvalid : m.Valid c imports) :
    ∃ functions, newFunctions m name addr exports imported = some functions := by
  refine exists_mapM fun entry hentry => ?_
  obtain ⟨index, position⟩ := entry
  obtain ⟨code, type, hcode, htype, -⟩ :=
    hvalid.functions position index (List.mem_zipIdx_iff_getElem?.mp hentry)
  exact Option.isSome_iff_exists.mp (by simp [newFunction, hcode, htype])

theorem exists_newTables
    (hvalid : m.Valid c imports) : ∃ tables, newTables m = some tables := by
  refine exists_mapM fun entry hentry => ?_
  obtain ⟨t, limits, rfl, -, hlimits, -⟩ := hvalid.tables entry hentry
  exact ⟨TableInst.new t.element limits, by simp [hlimits]⟩

theorem exists_newMemories
    (hvalid : m.Valid c imports) : ∃ memories, s.newMemories m = some memories := by
  refine exists_mapM fun entry hentry => ?_
  obtain ⟨limits, rfl, -⟩ := hvalid.memories entry hentry
  exact ⟨MemInst.new limits s.memoryCap, rfl⟩

theorem exportVal_eq
    {entry : Export} {size : Nat} (hsize : Module.spaceSize c entry.kind = some size) :
    exportVal inst entry =
      (inst.addrs entry.kind)[entry.index.toNat]?.map fun addr =>
        (entry.name, { kind := entry.kind, addr }) := by
  unfold exportVal ModuleInst.addrs
  cases hkind : entry.kind with
  | reserved =>
      rw [hkind] at hsize
      cases hsize
  | _ => exact Option.map_eq_bind.symm

/-- The allocation of a module that is valid and linked finds everything that it
needs. -/
theorem isSome_allocate
    (hvalid : m.Valid (.ofModule m features) imports)
    (hlink : List.Forall₂ s.Provides imports externs) :
    (s.allocate m name externs).isSome := by
  have hsupplies := supplies_of_link hvalid hlink
  obtain ⟨exports, hexports⟩ := @exists_mapM _ _ id m.exports fun entry hentry => by
    obtain ⟨e, _, rfl, -⟩ := hvalid.exports entry hentry
    exact ⟨e, rfl⟩
  obtain ⟨functions, hfunctions⟩ :=
    @exists_newFunctions m _ name imports s.nextModule exports
      (externAddrs externs .func).length hvalid
  obtain ⟨tables, htables⟩ := exists_newTables hvalid
  obtain ⟨memories, hmemories⟩ := @exists_newMemories s m _ imports hvalid
  let extended := { s with
    functions := s.functions ++ functions
    tables := s.tables ++ tables
    memories := s.memories ++ memories }
  obtain ⟨⟨store, globalAddrs⟩, hglobals⟩ :
      ∃ result, extended.addGlobals (externAddrs externs .global) m.globals =
        some result := by
    have haddrs : ∀ addr ∈ externAddrs externs .global,
        addr.toNat < s.arenaSize .global :=
      fun _ => lt_of_mem_externAddrs hlink
    refine @exists_addGlobals extended (.ofModule m features) _ _ haddrs
      fun i entry hentry => ?_
    obtain ⟨global, type, init, hsome, htype, -, hinit, hconst⟩ :=
      hvalid.globals i entry hentry
    rw [length_externAddrs hsupplies]
    exact ⟨global, type, init, hsome, htype, hinit, hconst⟩
  let inst : ModuleInst := {
    name, addr := s.nextModule, types := m.types
    functions := externAddrs externs .func ++ freshAddrs s.functions.size
      functions.length
    tables := externAddrs externs .table ++ freshAddrs s.tables.size tables.length
    memories := externAddrs externs .memory ++ freshAddrs s.memories.size
      memories.length
    globals := globalAddrs
    exports := [] }
  obtain ⟨exported, hexported⟩ : ∃ exported,
      exports.mapM (exportVal inst) = some exported := by
    refine exists_mapM fun e he => ?_
    obtain ⟨entry, hentry, rfl⟩ := exists_of_mem_right (mapM_eq_some_iff.mp hexports) he
    obtain ⟨_, size, ⟨⟩, hsize, hindex⟩ := hvalid.exports _ hentry
    have hlength : (inst.addrs e.kind).length = size := by
      rw [Module.eq_of_spaceSize hsize, ← length_externAddrs hsupplies]
      cases hkind : e.kind with
      | func =>
          simp [inst, ModuleInst.addrs, Module.ownCount,
            ← (mapM_eq_some_iff.mp hfunctions).length_eq]
      | table =>
          simp [inst, ModuleInst.addrs, Module.ownCount,
            ← (mapM_eq_some_iff.mp htables).length_eq]
      | memory =>
          simp [inst, ModuleInst.addrs, Module.ownCount,
            ← (mapM_eq_some_iff.mp hmemories).length_eq]
      | global =>
          simp [inst, ModuleInst.addrs, Module.ownCount, length_of_addGlobals hglobals]
      | reserved =>
          rw [hkind] at hsize
          cases hsize
    rw [exportVal_eq hsize, List.getElem?_eq_getElem (hlength ▸ hindex)]
    exact ⟨_, rfl⟩
  simp [allocate, hexports, hfunctions, htables, hmemories, extended, hglobals,
    inst, hexported]

theorem Covers.exists_segmentOffset
    {type : ValueType} {expr : ConstExpr} (h : s.Covers c inst)
    (hconst : c.ConstHasType c.globals.length type expr) :
    ∃ offset, s.segmentOffset inst (some expr) = some offset := by
  have hlength : inst.globals.length = c.globals.length := h.length .global _ rfl
  rw [← hlength] at hconst
  have hrange : ∀ addr ∈ inst.globals, addr.toNat < s.globals.size := h.range .global
  obtain ⟨v, hv⟩ := exists_evalConst hrange hconst
  exact ⟨v.u32, by simp [segmentOffset, hv]⟩

theorem safe_checkSegments
    (hvalid : m.Valid c imports) (h : s.Covers c inst) :
    (s.checkSegments inst m).Safe := by
  refine Attempt.Safe.bind (Attempt.safe_forEach fun i entry hentry _ => ?_) fun _ _ =>
    Attempt.safe_forEach fun i entry hentry _ => ?_
  · obtain ⟨e, expr, rfl, htable, hexpr, hconst, -⟩ :=
      hvalid.elements entry (List.mem_of_getElem? hentry)
    obtain ⟨offset, hoffset⟩ := h.exists_segmentOffset hconst
    obtain ⟨addr, haddr, hlt⟩ := h.exists_addr .table rfl htable
    rw [← hexpr] at hoffset
    exact Attempt.safe_present_bind rfl <| Attempt.safe_present_bind hoffset <|
      Attempt.safe_present_bind haddr <| Attempt.safe_present_bind
        (Array.getElem?_eq_getElem hlt) Attempt.safe_require
  · obtain ⟨d, expr, rfl, hmemory, hexpr, hconst⟩ :=
      hvalid.data entry (List.mem_of_getElem? hentry)
    obtain ⟨offset, hoffset⟩ := h.exists_segmentOffset hconst
    obtain ⟨addr, haddr, hlt⟩ := h.exists_addr .memory rfl hmemory
    rw [← hexpr] at hoffset
    exact Attempt.safe_present_bind rfl <| Attempt.safe_present_bind hoffset <|
      Attempt.safe_present_bind haddr <| Attempt.safe_present_bind
        (Array.getElem?_eq_getElem hlt) Attempt.safe_require

theorem exists_fillSlots
    {functions init : List UInt32} {slots : Array (Option UInt32)} {slot bound : UInt32}
    (hinit : ∀ index ∈ init, index.toNat < functions.length)
    (hbound : bound.toNat ≤ slots.size)
    (hfit : slot.toNat + init.length ≤ bound.toNat) :
    ∃ slots', fillSlots functions slots slot init = some slots' := by
  induction init generalizing slots slot with
  | nil => exact ⟨slots, rfl⟩
  | cons index rest ih =>
      have hindex := hinit index List.mem_cons_self
      rw [List.length_cons] at hfit
      have hslot : slot.toNat < slots.size := by omega
      have hnext : (slot + 1).toNat = slot.toNat + 1 := by
        have := bound.toNat_lt
        rw [UInt32.toNat_add, UInt32.toNat_one, Nat.mod_eq_of_lt (by omega)]
      obtain ⟨slots', hslots'⟩ :=
        @ih (slots.setIfInBounds slot.toNat (some functions[index.toNat])) (slot + 1)
        (fun index h => hinit index (List.mem_cons_of_mem _ h))
          (by simpa using hbound) (by omega)
      exact ⟨slots', by simp [fillSlots, hindex, hslot, hslots']⟩

theorem toNat_le_of_hasSize
    {memory : MemInst} {offset : UInt32} {count : Nat} (hcount : count < 2 ^ 63)
    (h : memory.hasSize offset.toUInt64 (UInt64.ofNat count)) :
    offset.toNat ≤ memory.bytes.size := by
  have hoffset := offset.toNat_lt
  have hsum : (offset.toUInt64 + UInt64.ofNat count).toNat = offset.toNat + count := by
    rw [UInt64.toNat_add, UInt32.toNat_toUInt64, UInt64.toNat_ofNat']
    omega
  simp only [MemInst.hasSize, decide_eq_true_eq, UInt64.le_iff_toNat_le, hsum,
    UInt64.toNat_ofNat'] at h
  have hmod := Nat.mod_le memory.bytes.size (2 ^ 64)
  omega

/-- A fold each of whose steps succeeds and keeps a property succeeds. -/
theorem exists_foldlM
    {α β : Type} {P : α → Prop} {f : α → β → Option α} {entries : List β} {a : α}
    (hstep : ∀ a, ∀ b ∈ entries, P a → ∃ a', f a b = some a' ∧ P a') (ha : P a) :
    ∃ a', entries.foldlM f a = some a' ∧ P a' := by
  induction entries generalizing a with
  | nil => exact ⟨a, rfl, ha⟩
  | cons b rest ih =>
      obtain ⟨next, hnext, hP⟩ := hstep a b List.mem_cons_self ha
      obtain ⟨a', hrest, hP'⟩ :=
        ih (fun a b hb => hstep a b (List.mem_cons_of_mem _ hb)) hP
      exact ⟨a', by simp [hnext, hrest], hP'⟩

/-- Another store has the same globals, and its tables and memories have the same
sizes. -/
structure SameSizes (s t : Store) : Prop where
  globals : t.globals = s.globals
  tables : Kept (fun a b => b.slots.size = a.slots.size) s.tables t.tables
  memories : Kept (fun a b => b.bytes.size = a.bytes.size) s.memories t.memories

theorem SameSizes.segmentOffset_eq
    {t : Store} (h : s.SameSizes t) (offset : Option ConstExpr) :
    t.segmentOffset inst offset = s.segmentOffset inst offset := by
  have heval (addrs : List UInt32) (expr : ConstExpr) : t.evalConst addrs expr =
      s.evalConst addrs expr := by
    cases expr <;> simp [evalConst, h.globals]
  simp only [segmentOffset, heval]

theorem exists_applyElement
    {t : Store} {index : Nat} {e : ElementSegment} {u : Unit} (h : s.SameSizes t)
    (hcheck : s.checkElementSegment inst index (some e) = .ok u)
    (hinit : ∀ index ∈ e.init, index.toNat < inst.functions.length) :
    ∃ t', t.applyElement inst (some e) = some t' ∧ s.SameSizes t' := by
  simp only [checkElementSegment, Attempt.bind_eq_ok, Attempt.present_eq_ok,
    Option.some.injEq, Attempt.require_eq_ok, decide_eq_true_eq] at hcheck
  obtain ⟨_, rfl, offset, hoffset, addr, haddr, table, htable, hfit⟩ := hcheck
  obtain ⟨table', htable', hsize⟩ := h.tables _ _ htable
  have hbound : table.size.toNat ≤ table'.slots.size := by
    rw [hsize, TableInst.size, UInt32.toNat_ofNat']
    exact Nat.mod_le _ _
  obtain ⟨slots, hslots⟩ := exists_fillSlots hinit hbound hfit
  refine ⟨t.setTable addr { table' with slots }, ?_, h.globals, ?_, h.memories⟩
  · simp [applyElement, h.segmentOffset_eq, hoffset, haddr, htable', hslots]
  · exact h.tables.trans (fun _ _ _ h h' => h'.trans h)
      (.set (fun _ => rfl) htable' (fillSlots_eq_some hslots).1)

theorem exists_applyData
    {t : Store} {index : Nat} {d : DataSegment} {u : Unit} (h : s.SameSizes t)
    (hcheck : s.checkDataSegment inst index (some d) = .ok u)
    (hcount : d.init.length < 2 ^ 63) :
    ∃ t', t.applyData inst (some d) = some t' ∧ s.SameSizes t' := by
  simp only [checkDataSegment, Attempt.bind_eq_ok, Attempt.present_eq_ok,
    Option.some.injEq, Attempt.require_eq_ok] at hcheck
  obtain ⟨_, rfl, offset, hoffset, addr, haddr, memory, hmemory, hfit⟩ := hcheck
  obtain ⟨memory', hmemory', hsize⟩ := h.memories _ _ hmemory
  have hle : offset.toNat ≤ memory'.bytes.size :=
    hsize ▸ toNat_le_of_hasSize hcount hfit
  refine ⟨t.setMemory addr (memory'.splice offset.toNat d.init), ?_, h.globals,
    h.tables, ?_⟩
  · simp [applyData, h.segmentOffset_eq, hoffset, haddr, hmemory', hle]
  · exact h.memories.trans (fun _ _ _ h h' => h'.trans h)
      (.set (fun _ => rfl) hmemory' (size_overwrite _ _ _))

/-- Segments that have been checked can be written. -/
theorem isSome_applySegments
    {u : Unit} (hvalid : m.Valid c imports) (h : s.Covers c inst)
    (hdata : m.HasCountableData) (hcheck : s.checkSegments inst m = .ok u) :
    (s.applySegments inst m).isSome := by
  obtain ⟨_, helements, hsegments⟩ := Attempt.bind_eq_ok.mp hcheck
  rw [Attempt.forEach_eq_ok] at helements hsegments
  have hrefl : s.SameSizes s := ⟨rfl, .refl fun _ => rfl, .refl fun _ => rfl⟩
  have hfunctions : inst.functions.length = c.functions.length := h.length .func _ rfl
  obtain ⟨t, ht, hsizes⟩ : ∃ t, m.elements.foldlM (applyElement · inst) s = some t ∧
      s.SameSizes t := by
    refine exists_foldlM (fun t entry hentry ht => ?_) hrefl
    obtain ⟨e, offset, rfl, -, -, -, hinit⟩ := hvalid.elements entry hentry
    obtain ⟨i, hi⟩ := List.getElem?_of_mem hentry
    rw [← hfunctions] at hinit
    exact exists_applyElement ht (helements i _ hi) hinit
  obtain ⟨t', ht', -⟩ : ∃ t', m.data.foldlM (applyData · inst) t = some t' ∧
      s.SameSizes t' := by
    refine exists_foldlM (fun t entry hentry ht => ?_) hsizes
    obtain ⟨d, offset, rfl, -⟩ := hvalid.data entry hentry
    obtain ⟨i, hi⟩ := List.getElem?_of_mem hentry
    exact exists_applyData ht (hsegments i _ hi) (hdata d hentry)
  simp [applySegments, ht, ht']

/-- Nothing is missing when a module is prepared in a store whose functions all have
types. -/
theorem prepares
    (hs : ∀ f ∈ s.functions, f.type ≠ none) (hdata : m.HasCountableData) :
    s.Prepares m name externs where
  validate := m.safe_validate s.features
  link := fun imports hvalid => safe_link (Module.valid_of_validate hvalid) hs
  memories := safe_checkMemories
  allocate := fun imports hvalid hlink =>
    isSome_allocate (Module.valid_of_validate hvalid) (link_eq_ok_iff.mp hlink)
  segments := by
    intro imports s' inst hvalid hlink halloc
    have hvalid := Module.valid_of_validate hvalid
    exact safe_checkSegments hvalid
      (covers_of_allocate hvalid (link_eq_ok_iff.mp hlink) halloc)
  apply := by
    intro imports s' inst hvalid hlink halloc hcheck
    have hvalid := Module.valid_of_validate hvalid
    have hcovers := covers_of_allocate hvalid (link_eq_ok_iff.mp hlink) halloc
    exact isSome_applySegments hvalid hcovers hdata hcheck
  start := by
    intro imports s' inst index hvalid hlink halloc hstart
    have hvalid := Module.valid_of_validate hvalid
    have hcovers := covers_of_allocate hvalid (link_eq_ok_iff.mp hlink) halloc
    obtain ⟨addr, haddr, -⟩ := hcovers.exists_addr .func rfl (hvalid.start index hstart)
    exact Option.isSome_iff_exists.mpr ⟨addr, haddr⟩

end Safety

/-- The instance covers a context, and what its addresses denote has the types that the
context says. -/
structure Realizes (s : Store) (c : Context) (inst : ModuleInst) :
    Prop extends s.Covers c inst where
  types : inst.types = c.types
  functions : List.Forall₂ (s.FunctionAt c.types) c.functions inst.functions
  globals : List.Forall₂ s.GlobalAt c.globals inst.globals

section Extension

variable {guarded : Prop} {s s' : Store} (hext : s.Extends guarded s')
include hext

theorem Extends.arenaSize_le (kind : ExternKind) :
    s.arenaSize kind ≤ s'.arenaSize kind := by
  cases kind with
  | func => exact hext.functions.size_le
  | table => exact hext.tables.size_le
  | memory => exact hext.memories.size_le
  | global => exact hext.globals.size_le
  | reserved => exact Nat.le_refl 0

theorem Extends.functionAt
    {types : List (Option FuncType)} {index addr : UInt32}
    (h : s.FunctionAt types index addr) :
    s'.FunctionAt types index addr := by
  obtain ⟨f, type, hf, htype, hindex⟩ := h
  obtain ⟨_, hf', rfl⟩ := hext.functions _ _ hf
  exact ⟨f, type, hf', htype, hindex⟩

theorem Extends.globalAt
    {type : Option GlobalType} {addr : UInt32} (h : s.GlobalAt type addr) :
    s'.GlobalAt type addr := by
  obtain ⟨g, hg, rfl⟩ := h
  obtain ⟨g', hg', htype, -⟩ := hext.globals _ _ hg
  exact ⟨g', hg', by rw [htype]⟩

theorem Extends.realizes
    {c : Context} {inst : ModuleInst} (h : s.Realizes c inst) : s'.Realizes c inst where
  length := h.length
  range := fun kind addr haddr => Nat.lt_of_lt_of_le (h.range kind addr haddr)
    (hext.arenaSize_le kind)
  types := h.types
  functions := h.functions.imp fun _ _ => hext.functionAt
  globals := h.globals.imp fun _ _ => hext.globalAt

end Extension

/-- New instances are found under their addresses, as long as these do not wrap
around. -/
theorem forall₂_freshAddrs
    {α β : Type} {S : α → β → Prop} {R : α → UInt32 → Prop} {arena : Array β}
    {entries : List α} {added : List β} (h : List.Forall₂ S entries added)
    (hsize : (arena ++ added).size ≤ UInt32.size)
    (hR : ∀ a b (addr : UInt32), S a b → (arena ++ added)[addr.toNat]? = some b →
      R a addr) :
    List.Forall₂ R entries (freshAddrs arena.size added.length) := by
  rw [List.forall₂_iff_get] at h ⊢
  obtain ⟨hlength, hget⟩ := h
  refine ⟨by rw [length_freshAddrs, hlength], fun i hi hi' => ?_⟩
  have hadded : i < added.length := hlength ▸ hi
  rw [size_append_list] at hsize
  refine hR _ _ _ (hget i hi hadded) ?_
  have haddr : (freshAddrs arena.size added.length)[i] =
      UInt32.ofNat (arena.size + i) := by
    have := List.getElem?_eq_getElem hi'
    rw [getElem?_freshAddrs hadded] at this
    exact (Option.some.inj this).symm
  rw [List.get_eq_getElem, haddr, UInt32.toNat_ofNat_of_lt' (by omega),
    getElem?_append_list]
  exact List.getElem?_eq_getElem hadded

section Globals

variable {s s' : Store} {c : Context} {addrs addrs' : List UInt32}
  {known : List (Option GlobalType)}

/-- Every global has a value of its type. -/
def GlobalsTyped (s : Store) : Prop :=
  ∀ g ∈ s.globals, g.value.type = g.type.value

theorem evalConst_type
    {type : ValueType} {expr : ConstExpr} {v : Val} (hs : s.GlobalsTyped)
    (haddrs : List.Forall₂ s.GlobalAt known addrs) (hknown : known <+: c.globals)
    (hconst : c.ConstHasType known.length type expr)
    (h : s.evalConst addrs expr = some v) : v.type = type := by
  cases expr with
  | const number bits =>
      obtain rfl := Option.some.inj h
      rw [Val.type_ofBits]
      exact hconst
  | globalGet index =>
      obtain ⟨hlt, gtype, hglobal, -, rfl⟩ := hconst
      simp only [evalConst, Option.bind_eq_bind, Option.bind_eq_some_iff,
        Option.pure_def, Option.some.injEq] at h
      obtain ⟨addr, haddr, g, hg, rfl⟩ := h
      obtain ⟨later, hlater⟩ := hknown
      rw [← hlater, List.getElem?_append_left hlt] at hglobal
      obtain ⟨_, haddr', g', hg', htype⟩ := exists_of_getElem?_left haddrs hglobal
      obtain rfl := Option.some.inj (haddr.symm.trans haddr')
      obtain rfl := Option.some.inj (hg.symm.trans hg')
      rw [hs g (Array.mem_of_getElem? hg), Option.some.inj htype]
  | other => exact hconst.elim

/-- Globals that are added by valid entries have values of their types, and their
addresses denote them. -/
theorem globalsTyped_of_addGlobals
    {entries : List (Option Global)} (hs : s.GlobalsTyped)
    (haddrs : List.Forall₂ s.GlobalAt known addrs)
    (hc : c.globals = known ++ entries.map (·.bind Global.type))
    (hentries : ∀ (i : Nat) entry, entries[i]? = some entry → ∃ global type init,
      entry = some global ∧ global.type = some type ∧ global.init = some init ∧
      c.ConstHasType (known.length + i) type.value init)
    (h : s.addGlobals addrs entries = some (s', addrs'))
    (hsize : s'.globals.size ≤ UInt32.size) :
    s'.GlobalsTyped ∧ List.Forall₂ s'.GlobalAt c.globals addrs' := by
  induction entries generalizing s addrs known with
  | nil =>
      obtain ⟨rfl, rfl⟩ : s = s' ∧ addrs = addrs' := by simpa [addGlobals] using h
      rw [List.map_nil, List.append_nil] at hc
      exact ⟨hs, hc ▸ haddrs⟩
  | cons entry rest ih =>
      obtain ⟨global, init, value, type, rfl, hinit, hvalue, htype, hrest⟩ :=
        addGlobals_cons_eq_some_iff.mp h
      obtain ⟨_, type', init', ⟨⟩, htype', hinit', hconst⟩ := hentries 0 _ rfl
      obtain rfl := Option.some.inj (htype.symm.trans htype')
      obtain rfl := Option.some.inj (hinit.symm.trans hinit')
      have hvaluetype := evalConst_type hs haddrs ⟨_, hc.symm⟩ hconst hvalue
      have hnext : s.nextGlobal.toNat = s.globals.size := by
        obtain ⟨added, rfl, -⟩ := exists_of_addGlobals hrest
        rw [size_append_list, addGlobal, Array.size_push] at hsize
        exact UInt32.toNat_ofNat_of_lt' (by omega)
      have hext : s.Extends False (s.addGlobal { type, value }) := .addGlobal _
      refine @ih (s.addGlobal { type, value }) _ (known ++ [some type]) ?_
        ?_ ?_ ?_ hrest
      · intro g hg
        rcases Array.mem_push.mp hg with hold | rfl
        · exact hs g hold
        · exact hvaluetype
      · refine List.rel_append (haddrs.imp fun _ _ => hext.globalAt)
          (.cons ⟨{ type, value }, ?_, rfl⟩ .nil)
        simp [addGlobal, hnext]
      · simp [hc, htype]
      · intro i entry hentry
        simpa [Nat.add_assoc, Nat.add_comm 1 i] using hentries (i + 1) entry hentry

end Globals

section Allocated

variable {s : Store} {m : Module} {features : Features} {name : String}
  {imports : List ExternType} {externs : List ExternVal} {inst : ModuleInst}
  {added : Additions}

theorem Extends.extend
    {guarded : Prop} (s : Store) (added : Additions) :
    s.Extends guarded (s.extend added) where
  functions := .append fun _ => rfl
  modules := .refl fun _ => rfl
  globals := .append .refl
  tables := .append .refl
  memories := .append .refl
  engine := rfl

theorem Allocation.forall₂_functions
    (h : s.Allocation m name externs inst added)
    (hvalid : m.Valid (.ofModule m features) imports) :
    List.Forall₂ (fun (index : UInt32) (f : FuncInst) => ∃ type, f.type = some type ∧
      m.types[index.toNat]? = some (some type)) m.functions added.functions := by
  obtain ⟨exports, -, hfunctions⟩ := h.functions
  have hpaired := mapM_eq_some_iff.mp hfunctions
  rw [← List.zipIdx_map_fst 0 m.functions, List.forall₂_map_left_iff]
  refine hpaired.imp ?_
  rintro ⟨index, position⟩ f hnew
  obtain ⟨code, entry, -, hindex, rfl⟩ := newFunction_eq_some hnew
  obtain ⟨type, rfl, -⟩ := hvalid.types entry (List.mem_of_getElem? hindex)
  exact ⟨type, rfl, hindex⟩

/-- The globals of a module that is valid and linked have values of their types, and
they are found under the addresses of the instance. -/
theorem Allocation.globalsTyped
    (h : s.Allocation m name externs inst added)
    (hvalid : m.Valid (.ofModule m features) imports)
    (hlink : List.Forall₂ s.Provides imports externs) (hs : s.GlobalsTyped)
    (hsize : (s.extend added).globals.size ≤ UInt32.size) :
    (s.extend added).GlobalsTyped ∧
      List.Forall₂ (s.extend added).GlobalAt (Context.ofModule m features).globals
        inst.globals := by
  have hbefore : s.Extends False (s.extend { added with globals := [] }) := .extend s _
  have himported := forall₂_importedGlobals (supplies_of_link hvalid hlink)
  refine globalsTyped_of_addGlobals ?_ (himported.imp fun _ _ => hbefore.globalAt)
    m.globalSpace_eq ?_ h.globals hsize
  · simpa [GlobalsTyped, extend] using hs
  · intro i entry hentry
    obtain ⟨global, type, init, hsome, htype, -, hinit, hconst⟩ :=
      hvalid.globals i entry hentry
    rw [m.length_importedGlobals]
    exact ⟨global, type, init, hsome, htype, hinit, hconst⟩

/-- The instance of a module that is valid and linked realizes its context. -/
theorem Allocation.realizes
    (h : s.Allocation m name externs inst added)
    (hvalid : m.Valid (.ofModule m features) imports)
    (hlink : List.Forall₂ s.Provides imports externs) (hs : s.GlobalsTyped)
    (hfunctions : (s.extend added).functions.size ≤ UInt32.size)
    (hglobals : (s.extend added).globals.size ≤ UInt32.size) :
    (s.extend added).Realizes (.ofModule m features) inst := by
  have hext : s.Extends False (s.extend added) := .extend s added
  have himported := forall₂_importedFunctions (supplies_of_link hvalid hlink)
  have hglobals := (h.globalsTyped hvalid hlink hs hglobals).2
  refine { h.covers hvalid hlink with
    types := h.types, functions := ?_, globals := hglobals }
  rw [h.functionAddrs]
  refine List.rel_append (himported.imp fun _ _ => hext.functionAt) ?_
  refine forall₂_freshAddrs (h.forall₂_functions hvalid) hfunctions ?_
  rintro index f addr ⟨type, htype, hindex⟩ hf
  exact ⟨f, type, hf, htype, hindex⟩

end Allocated

end Store
end WebAssembly
