import WebAssembly.Proofs.AddressSpace

/-!
# Index spaces

Validation gives every index of a module a static type; instantiation gives it an
address.  The two agree, and they go on to agree: what stands under the address has the
static type of the index in every later store, so that whatever is exported can be
linked to an import of its own type.
-/

namespace WebAssembly

namespace Context

def externTypes (c : Context) : ExternKind → List (Option ExternType)
  | .func => c.functions.map fun index => c.types[index.toNat]?.join.map .func
  | .table => c.tables.map (·.map .table)
  | .memory => c.memories.map (·.map .memory)
  | .global => c.globals.map (·.map .global)
  | .reserved _ => []

theorem length_externTypes
    {c : Context} {kind : ExternKind} {size : Nat}
    (h : Module.spaceSize c kind = some size) :
    (c.externTypes kind).length = size := by
  cases kind with
  | reserved => cases h
  | _ =>
      obtain rfl := Option.some.inj h
      exact List.length_map _

end Context

/-! ## Sizes that can be told -/

namespace Store

/-- Tables and memories keep to their limits, so that their sizes are words of 32
bits. -/
structure Sized (s : Store) : Prop where
  tables : ∀ t ∈ s.tables, t.slots.size < UInt32.size
  memories : ∀ m ∈ s.memories, m.WellFormed

theorem WellFormed.sized
    {s : Store} (h : s.WellFormed) : s.Sized :=
  ⟨fun t ht => (h.tables t ht).countable, h.memories⟩

end Store

/-! ## What stands under an address -/

namespace Limits

variable {limits : Limits} {size size' : UInt32} {max : Option UInt32}

theorem admits_self (limits : Limits) : limits.admits limits.min limits.max = true := by
  unfold admits
  cases limits.max <;> simp

theorem admits_mono
    (h : limits.admits size max = true) (hle : size ≤ size') :
    limits.admits size' max = true := by
  simp only [admits, Bool.and_eq_true, decide_eq_true_eq] at h ⊢
  exact ⟨UInt32.le_trans h.1 hle, h.2⟩

end Limits

namespace Store

variable {guarded : Prop} {s s' : Store}

/-- What a store provides under an extern value, a later store still provides. -/
theorem Extends.provides
    (hext : s.Extends guarded s') (hs' : s'.Sized) {type : ExternType} {val : ExternVal}
    (h : s.Provides type val) : s'.Provides type val := by
  cases type with
  | func type =>
      obtain ⟨hkind, f, hf, htype⟩ := h
      obtain ⟨_, hf', rfl⟩ := hext.functions _ _ hf
      exact ⟨hkind, f, hf', htype⟩
  | table type =>
      obtain ⟨hkind, t, limits, ht, helement, hlimits, hadmits⟩ := h
      obtain ⟨t', ht', helement', hlimits', hsize⟩ := hext.tables _ _ ht
      refine ⟨hkind, t', limits, ht', helement'.trans helement, hlimits, ?_⟩
      rw [hlimits']
      refine Limits.admits_mono hadmits (UInt32.le_iff_toNat_le.mpr ?_)
      have hcountable := hs'.tables t' (Array.mem_of_getElem? ht')
      rw [TableInst.size, TableInst.size, UInt32.toNat_ofNat_of_lt' hcountable,
        UInt32.toNat_ofNat']
      exact Nat.le_trans (Nat.mod_le _ _) hsize
  | memory limits =>
      obtain ⟨hkind, m, hm, hadmits⟩ := h
      obtain ⟨m', hm', hlimits', -, hsize⟩ := hext.memories _ _ hm
      refine ⟨hkind, m', hm', ?_⟩
      rw [hlimits']
      refine Limits.admits_mono hadmits (UInt32.le_iff_toNat_le.mpr ?_)
      have hpages : m'.pages.toNat = m'.bytes.size / Page.byteCount := by
        rw [(hs'.memories m' (Array.mem_of_getElem? hm')).size, Page.byteCount,
          Nat.mul_div_cancel_left _ (by decide)]
      rw [hpages, MemInst.pages, UInt32.toNat_ofNat']
      exact Nat.le_trans (Nat.mod_le _ _) (Nat.div_le_div_right hsize)
  | global type =>
      obtain ⟨hkind, g, hg, rfl⟩ := h
      obtain ⟨g', hg', htype, -⟩ := hext.globals _ _ hg
      exact ⟨hkind, g', hg', htype⟩

/-- The entry of an index gives the type of what stands under an address. -/
def Backs (s : Store) (kind : ExternKind) (entry : Option ExternType)
    (addr : UInt32) : Prop :=
  ∃ type, entry = some type ∧ s.Provides type { kind, addr }

theorem Backs.of_extends
    {kind : ExternKind} {entry : Option ExternType} {addr : UInt32}
    (h : s.Backs kind entry addr) (hext : s.Extends guarded s') (hs' : s'.Sized) :
    s'.Backs kind entry addr := by
  obtain ⟨type, hentry, hprovides⟩ := h
  exact ⟨type, hentry, hext.provides hs' hprovides⟩

theorem FunctionAt.backs
    {types : List (Option FuncType)} {index addr : UInt32}
    (h : s.FunctionAt types index addr) :
    s.Backs .func (types[index.toNat]?.join.map .func) addr := by
  obtain ⟨f, type, hf, htype, hindex⟩ := h
  exact ⟨.func type, by simp [hindex], rfl, f, hf, htype⟩

theorem GlobalAt.backs
    {type : Option GlobalType} {addr : UInt32} (h : s.GlobalAt type addr) :
    s.Backs .global (type.map .global) addr := by
  obtain ⟨g, hg, rfl⟩ := h
  exact ⟨.global g.type, rfl, rfl, g, hg, rfl⟩

section Allocated

variable {m : Module} {features : Features} {name : String} {imports : List ExternType}
  {externs : List ExternVal} {inst : ModuleInst} {added : Additions}

theorem forall₂_importedTables
    (h : List.Forall₂ (s.Supplies m) m.importDescs externs) :
    List.Forall₂ (fun (type : Option TableType) addr =>
      s.Backs .table (type.map .table) addr)
      (m.importDescs.filterMap ImportDesc.table?) (externAddrs externs .table) := by
  refine forall₂_externAddrs h (fun _ => ImportDesc.table?_ne_none) ?_
  rintro desc val entry ⟨type, hdesc, hprovides⟩ hpick
  cases desc with
  | table entry' =>
      obtain rfl : entry' = entry := Option.some.inj hpick
      cases type with
      | table type =>
          obtain ⟨rfl, -⟩ := hdesc
          obtain ⟨hkind, htable⟩ := hprovides
          exact ⟨.table type, rfl, rfl, htable⟩
      | _ => exact hdesc.elim
  | _ => cases hpick

theorem forall₂_importedMemories
    (h : List.Forall₂ (s.Supplies m) m.importDescs externs) :
    List.Forall₂ (fun (limits : Option Limits) addr =>
      s.Backs .memory (limits.map .memory) addr)
      (m.importDescs.filterMap ImportDesc.memory?) (externAddrs externs .memory) := by
  refine forall₂_externAddrs h (fun _ => ImportDesc.memory?_ne_none) ?_
  rintro desc val entry ⟨type, hdesc, hprovides⟩ hpick
  cases desc with
  | memory entry' =>
      obtain rfl : entry' = entry := Option.some.inj hpick
      cases type with
      | memory limits =>
          obtain rfl : entry' = some limits := hdesc
          obtain ⟨hkind, hmemory⟩ := hprovides
          exact ⟨.memory limits, rfl, rfl, hmemory⟩
      | _ => exact hdesc.elim
  | _ => cases hpick

theorem Allocation.forall₂_ownTables
    (h : s.Allocation m name externs inst added)
    (hsize : (s.extend added).tables.size ≤ UInt32.size) :
    List.Forall₂ (fun (type : Option TableType) addr =>
      (s.extend added).Backs .table (type.map .table) addr)
      m.tables (freshAddrs s.tables.size added.tables.length) := by
  refine forall₂_freshAddrs (mapM_eq_some_iff.mp h.tables) hsize
    fun entry t addr hnew ht => ?_
  simp only [Option.bind_eq_bind, Option.bind_eq_some_iff, Option.pure_def,
    Option.some.injEq] at hnew
  obtain ⟨type, rfl, limits, hlimits, rfl⟩ := hnew
  refine ⟨.table type, rfl, rfl, _, limits, ht, rfl, hlimits, ?_⟩
  have hcount : (TableInst.new type.element limits).size = limits.min := by
    simp [TableInst.size, TableInst.new]
  rw [hcount]
  exact limits.admits_self

theorem Allocation.forall₂_ownMemories
    (h : s.Allocation m name externs inst added)
    (hsize : (s.extend added).memories.size ≤ UInt32.size) :
    List.Forall₂ (fun (limits : Option Limits) addr =>
      (s.extend added).Backs .memory (limits.map .memory) addr)
      m.memories (freshAddrs s.memories.size added.memories.length) := by
  refine forall₂_freshAddrs (mapM_eq_some_iff.mp h.memories) hsize
    fun entry memory addr hnew hmemory => ?_
  obtain ⟨limits, rfl, rfl⟩ := Option.map_eq_some_iff.mp hnew
  refine ⟨.memory limits, rfl, rfl, _, hmemory, ?_⟩
  have hpages : (MemInst.new limits s.memoryCap).pages = limits.min :=
    MemInst.pages_eq (by simp [MemInst.new, Page.toNat_bytes])
  rw [hpages]
  exact limits.admits_self

/-- Every index of a module that is valid and linked has an address under which
something of its static type stands. -/
theorem Allocation.backs
    (h : s.Allocation m name externs inst added)
    (hvalid : m.Valid (.ofModule m features) imports)
    (hlink : List.Forall₂ s.Provides imports externs) (hs : s.GlobalsTyped)
    (hsized : (s.extend added).Sized)
    (hsizes : ∀ kind, (s.extend added).arenaSize kind ≤ UInt32.size)
    (kind : ExternKind) :
    List.Forall₂ ((s.extend added).Backs kind)
      ((Context.ofModule m features).externTypes kind)
      (inst.addrs kind) := by
  have hext : s.Extends False (s.extend added) := .extend s added
  have hrealizes := h.realizes hvalid hlink hs (hsizes .func) (hsizes .global)
  have hsupplies := supplies_of_link hvalid hlink
  cases kind with
  | func =>
      exact List.forall₂_map_left_iff.mpr (hrealizes.functions.imp
        fun _ _ => FunctionAt.backs)
  | global =>
      exact List.forall₂_map_left_iff.mpr (hrealizes.globals.imp
        fun _ _ => GlobalAt.backs)
  | table =>
      have himported := (forall₂_importedTables hsupplies).imp fun _ _ hbacks =>
        hbacks.of_extends hext hsized
      refine List.forall₂_map_left_iff.mpr ?_
      rw [ModuleInst.addrs, h.tableAddrs, Context.ofModule, Module.tableSpace_eq]
      exact List.rel_append himported (h.forall₂_ownTables (hsizes .table))
  | memory =>
      have himported := (forall₂_importedMemories hsupplies).imp fun _ _ hbacks =>
        hbacks.of_extends hext hsized
      refine List.forall₂_map_left_iff.mpr ?_
      rw [ModuleInst.addrs, h.memoryAddrs, Context.ofModule, Module.memorySpace_eq]
      exact List.rel_append himported (h.forall₂_ownMemories (hsizes .memory))
  | reserved => exact .nil

/-- The index space of a kind consists of the given extern values of that kind, in their
order, and of the next addresses of the store. -/
theorem Allocation.addrs_eq
    {size : Nat} {kind : ExternKind} (h : s.Allocation m name externs inst added)
    (hsize : Module.spaceSize (.ofModule m features) kind = some size) :
    inst.addrs kind = externAddrs externs kind ++ freshAddrs (s.arenaSize kind)
      (m.ownCount kind) := by
  cases kind with
  | func => rw [ModuleInst.addrs, h.functionAddrs, h.length_functions]; rfl
  | table => rw [ModuleInst.addrs, h.tableAddrs, h.length_tables]; rfl
  | memory => rw [ModuleInst.addrs, h.memoryAddrs, h.length_memories]; rfl
  | global => rw [ModuleInst.addrs, h.globalAddrs, h.length_globals]; rfl
  | reserved => cases hsize

end Allocated

end Store

/-! ## Exports -/

theorem lookup_eq_some_iff_mem
    {α : Type} {entries : List (String × α)} {name : String} {a : α}
    (hnodup : (entries.map Prod.fst).Nodup) :
    entries.lookup name = some a ↔ (name, a) ∈ entries := by
  induction entries with
  | nil => simp
  | cons entry rest ih =>
      obtain ⟨first, b⟩ := entry
      obtain ⟨hfresh, hrest⟩ := List.nodup_cons.mp hnodup
      rw [List.lookup_cons, List.mem_cons, Prod.mk.injEq]
      by_cases hname : name = first
      · subst hname
        have habsent : (name, a) ∉ rest := fun hmem =>
          hfresh (List.mem_map.mpr ⟨_, hmem, rfl⟩)
        simp [habsent, eq_comm]
      · simp [beq_eq_false_iff_ne.mpr hname, hname, ih hrest]

namespace Module

theorem nodup_of_checkExports
    {c : Context} {seen : List String} {index : Nat} {exports : List Export} {u : Unit}
    (h : checkExports c seen index (exports.map some) = .ok u) :
    (exports.map Export.name).Nodup ∧ ∀ e ∈ exports, e.name ∉ seen := by
  induction exports generalizing seen index with
  | nil => simp
  | cons e rest ih =>
      simp only [List.map_cons, checkExports, Attempt.bind_eq_ok, Check.inSection_eq_ok,
        Attempt.orFail_eq_ok, Attempt.require_eq_ok, exists_const, decide_eq_true_eq,
        Attempt.pure_eq_ok] at h
      obtain ⟨_, ⟨_, ⟨⟩, hunseen, _, -, -, rfl⟩, hrest⟩ := h
      obtain ⟨hnodup, hlater⟩ := ih hrest
      constructor
      · refine List.nodup_cons.mpr ⟨fun hmem => ?_, hnodup⟩
        obtain ⟨e', he', hname⟩ := List.mem_map.mp hmem
        exact hlater e' he' (hname ▸ List.mem_cons_self)
      · refine List.forall_mem_cons.mpr ⟨hunseen, fun e' he' hseen => ?_⟩
        exact hlater e' he' (List.mem_cons_of_mem _ hseen)

/-- The names under which a module exports differ. -/
theorem nodup_of_validate
    {m : Module} {features : Features} {imports : List ExternType}
    {exports : List Export} (h : m.validate features = .ok imports)
    (hexports : m.exports = exports.map some) :
    (exports.map Export.name).Nodup := by
  simp only [validate, Attempt.bind_eq_ok] at h
  obtain ⟨_, -, _, -, _, -, _, -, _, -, _, -, _, -, _, hcheck, -⟩ := h
  exact (nodup_of_checkExports (hexports ▸ hcheck)).1

end Module

namespace Store

variable {s : Store} {m : Module} {features : Features} {name : String}
  {imports : List ExternType} {externs : List ExternVal} {inst : ModuleInst}
  {added : Additions}

/-- The exports of an instance are those of its module, and no others. -/
theorem Allocation.lookup_exports_iff
    {exported : String} {val : ExternVal} (h : s.Allocation m name externs inst added)
    (hvalid : m.validate features = .ok imports) :
    inst.exports.lookup exported = some val ↔
      ∃ e, some e ∈ m.exports ∧ Exports inst e (exported, val) := by
  obtain ⟨exports, hexports, hpaired⟩ :=
    h.exists_exports (Module.valid_of_validate hvalid)
  have hnames : exports.map Export.name = inst.exports.map Prod.fst := by
    rw [← List.forall₂_eq_eq_eq, List.forall₂_map_left_iff, List.forall₂_map_right_iff]
    exact hpaired.imp fun _ _ hentry => hentry.1.symm
  have hnodup := Module.nodup_of_validate hvalid hexports
  rw [hnames] at hnodup
  rw [lookup_eq_some_iff_mem hnodup, hexports]
  constructor
  · intro hmem
    obtain ⟨e, he, hentry⟩ := exists_of_mem_right hpaired hmem
    exact ⟨e, List.mem_map_of_mem he, hentry⟩
  · rintro ⟨e, he, hname, hkind, haddr⟩
    obtain ⟨e', he', heq⟩ := List.mem_map.mp he
    obtain rfl := Option.some.inj heq
    obtain ⟨⟨first, found⟩, hmem, hname', hkind', haddr'⟩ :=
      exists_of_mem_left hpaired he'
    obtain rfl : first = exported := hname'.trans hname.symm
    obtain rfl : found = val := by
      cases found
      cases val
      simp_all
    exact hmem


/-! ## Agreement -/

/-- The index spaces of an instance, the values of its globals and its exports are what
the module says. -/
structure Instantiates (s : Store) (m : Module) (externs : List ExternVal)
    (inst : ModuleInst) (allocated : Store) : Prop where
  addrs : ∀ kind size, Module.spaceSize (.ofModule m s.features) kind = some size →
    (inst.addrs kind).length = size ∧ ∃ fresh,
      inst.addrs kind = externAddrs externs kind ++ fresh ∧
      ∀ (i : Nat) addr, fresh[i]? = some addr → addr.toNat = s.arenaSize kind + i
  initial : ∀ (i : Nat) global, m.globals[i]? = some (some global) → ∃ init addr g,
    global.init = some init ∧
    inst.globals[m.importCount .global + i]? = some addr ∧
    allocated.globals[addr.toNat]? = some g ∧
    allocated.Names inst.globals (m.importCount .global + i) g.value init
  exports : ∀ exported val, inst.exports.lookup exported = some val ↔
    ∃ e, some e ∈ m.exports ∧ Exports inst e (exported, val)

/-- Under the address of every index stands something of its static type, and every
export can be linked where the static type of its index is asked for. -/
structure Serves (s : Store) (c : Context) (m : Module) (inst : ModuleInst) : Prop where
  types : ∀ kind (index : Nat) addr, (inst.addrs kind)[index]? = some addr →
    ∃ type, (c.externTypes kind)[index]? = some (some type) ∧
      s.checkExtern type { kind, addr } = .ok ()
  links : ∀ e, some e ∈ m.exports → ∃ type val,
    (c.externTypes e.kind)[e.index.toNat]? = some (some type) ∧
    inst.exports.lookup e.name = some val ∧ s.link [type] [val] = .ok ()

theorem Allocation.fresh_addrs
    {kind : ExternKind} (haddr : s.arenaSize kind + m.ownCount kind ≤ UInt32.size) :
    ∀ (i : Nat) addr, (freshAddrs (s.arenaSize kind) (m.ownCount kind))[i]? =
        some addr →
      addr.toNat = s.arenaSize kind + i := by
  intro i addr hi
  have hlt : i < m.ownCount kind := by
    have hlength := (List.getElem?_eq_some_iff.mp hi).1
    rwa [length_freshAddrs] at hlength
  rw [getElem?_freshAddrs hlt] at hi
  obtain rfl := Option.some.inj hi
  exact UInt32.toNat_ofNat_of_lt' (by omega)

theorem Allocation.initial
    (h : s.Allocation m name externs inst added)
    (hvalid : m.Valid (.ofModule m features) imports)
    (hlink : List.Forall₂ s.Provides imports externs)
    (hsize : (s.extend added).globals.size ≤ UInt32.size) {i : Nat} {global : Global}
    (hglobal : m.globals[i]? = some (some global)) :
    ∃ init addr g, global.init = some init ∧
      inst.globals[m.importCount .global + i]? = some addr ∧
      (s.extend added).globals[addr.toNat]? = some g ∧
      (s.extend added).Names inst.globals (m.importCount .global + i) g.value init := by
  obtain ⟨g, init, hg, -, hinit, hnames⟩ := h.names_initial hvalid hglobal
  have himported := @length_externAddrs s m externs .global
    (supplies_of_link hvalid hlink)
  have hlt : i < added.globals.length :=
    h.length_globals ▸ (List.getElem?_eq_some_iff.mp hglobal).1
  rw [extend, size_append_list] at hsize
  have hposition : (UInt32.ofNat (s.globals.size + i)).toNat = s.globals.size + i :=
    UInt32.toNat_ofNat_of_lt' (by omega)
  refine ⟨init, UInt32.ofNat (s.globals.size + i), g, hinit, ?_, ?_, hnames⟩
  · rw [h.globalAddrs, List.getElem?_append_right (by omega), himported,
      Nat.add_sub_cancel_left]
    exact getElem?_freshAddrs hlt
  · rw [hposition]
    exact getElem?_append_list.trans hg

theorem serves_of_backs
    {c : Context} (hbacks : ∀ kind,
      List.Forall₂ (s.Backs kind) (c.externTypes kind) (inst.addrs kind))
    (hvalid : m.Valid c imports)
    (hexports : ∀ exported val, inst.exports.lookup exported = some val ↔
      ∃ e, some e ∈ m.exports ∧ Exports inst e (exported, val)) :
        s.Serves c m inst := by
  have htypes (kind : ExternKind) (index : Nat) (addr : UInt32)
      (haddr : (inst.addrs kind)[index]? = some addr) :
      ∃ type, (c.externTypes kind)[index]? = some (some type) ∧
        s.Provides type { kind, addr } := by
    obtain ⟨_, hentry, type, rfl, hprovides⟩ :=
      exists_of_getElem?_left (hbacks kind).flip haddr
    exact ⟨type, hentry, hprovides⟩
  constructor
  · intro kind index addr haddr
    obtain ⟨type, hentry, hprovides⟩ := htypes kind index addr haddr
    exact ⟨type, hentry, checkExtern_eq_ok_iff.mpr hprovides⟩
  · intro e he
    obtain ⟨_, size, ⟨⟩, hsize, hindex⟩ := hvalid.exports _ he
    have hlength : (inst.addrs e.kind).length = size := by
      rw [← (hbacks e.kind).length_eq, Context.length_externTypes hsize]
    have haddr := List.getElem?_eq_getElem (hlength ▸ hindex)
    obtain ⟨type, hentry, hprovides⟩ := htypes e.kind e.index.toNat _ haddr
    refine ⟨type, ⟨e.kind, _⟩, hentry, (hexports e.name _).mpr ⟨e, he, rfl, rfl, haddr⟩,
      ?_⟩
    exact link_eq_ok_iff.mpr (.cons hprovides .nil)

end Store

namespace Engine

variable {law : ValueLaw} {s s' : Session} {m : Option Module} {name : String}
  {externs : List ExternVal} {inherited : ContextRef} {choice : ContextChoice}
  {bound : Nat} {response : Response}

/-- What follows the preparation of a module gives back what then stands at the position
of the instance. -/
theorem ends_start
    {context : ContextRef} {start : Option UInt32} {position : Nat} {inst : ModuleInst}
    {t : Session} (ht : t.store.Lawful law) :
    Ends (do
        match start with
        | some function => runStart name (invoke bound context function [])
        | none => pure ()
        Response.module <$> Operation.added position inst) t
      (fun response s' => Store.Evolves law False False t.store s'.store ∧
        response = .module (s'.store.modules[position]?.getD inst))
          fun _ _ => True := by
  have hevolves := @evolving_start law t.store bound context name start position inst
    (evolving ht bound) t (.refl t.store)
  have hread (u : Session) : Ends (Response.module <$> Operation.added position inst) u
      (fun response s' => response = .module (s'.store.modules[position]?.getD inst))
        fun _ _ => True :=
    rfl
  refine (hevolves.and (?_ : Ends _ t _ fun _ _ => True)).mono
    (fun _ _ h => ⟨h.1.2, h.2⟩) fun _ _ _ => trivial
  cases start with
  | none => exact hread t
  | some function =>
      refine Ends.bind (P := fun _ _ => True) ?_ fun _ u _ => hread u
      exact runStart_blamesOther.mono (fun _ _ _ => trivial) fun _ _ _ => trivial

/-- An instantiation that succeeds has prepared the module, since then the store has
changed by known steps, and the answer is what stands where the instance was added. -/
theorem perform_instantiate_eq_ok
    (h : perform bound inherited (.instantiate m name externs choice) s =
      .ok response s')
    (hs : s.store.Lawful law) :
    ∃ inst start t, Operation.prepare m name externs
        (s.openContext inherited choice).2 = .ok (inst, start) t ∧
      Store.Evolves law False False t.store s'.store ∧
      response = .module (s'.store.modules[s.store.modules.size]?.getD inst) := by
  cases bound with
  | zero => cases h
  | succ bound =>
      cases hprepare : Operation.prepare m name externs
        (s.openContext inherited choice).2 with
      | error error t =>
          cases h.symm.trans (perform_instantiate_of_prepare hprepare bound)
      | ok result t =>
          obtain ⟨inst, start⟩ := result
          have hmoves := @Operation.prepare_ends law False False m name externs
            (s.openContext inherited choice).2 False.elim
          have hopened := (Session.ComesTo.openContext s inherited choice).store
          have ht : t.store.Lawful law :=
            (hmoves.onOk hprepare).store.lawful (hopened ▸ hs)
          have hends : Ends (perform (bound + 1) inherited
              (.instantiate m name externs choice)) s
              (fun response s' => Store.Evolves law False False t.store s'.store ∧
                response = .module (s'.store.modules[s.store.modules.size]?.getD inst))
              fun _ _ => True :=
            .of_eq (perform_instantiate_of_prepared hprepare bound) (ends_start ht)
          exact ⟨inst, start, t, rfl, hends.onOk h⟩

end Engine

namespace Store

variable {law : ValueLaw} {total : Prop} {s allocated later : Store} {m : Module}
  {name : String} {externs : List ExternVal} {imports : List ExternType}
  {inst : ModuleInst}

theorem Allocation.arenaSize_eq
    {added : Additions} (h : s.Allocation m name externs inst added)
    (kind : ExternKind) :
    (s.extend added).arenaSize kind = s.arenaSize kind + m.ownCount kind := by
  cases kind with
  | func =>
      simp [arenaSize, extend, size_append_list, Module.ownCount, h.length_functions]
  | table =>
      simp [arenaSize, extend, size_append_list, Module.ownCount, h.length_tables]
  | memory =>
      simp [arenaSize, extend, size_append_list, Module.ownCount, h.length_memories]
  | global =>
      simp [arenaSize, extend, size_append_list, Module.ownCount, h.length_globals]
  | reserved => rfl

/-- A module that a store admits is instantiated as it says, and every later store
serves its index spaces. -/
theorem Admits.instantiates
    (h : s.Admits m name externs imports allocated inst) (hglobals : s.GlobalsTyped)
    (hwf : s.WellFormed) (hsizes : ∀ kind, allocated.arenaSize kind ≤ UInt32.size) :
    s.Instantiates m externs inst allocated ∧ ∀ later, allocated.Extends False later →
      later.Sized →
      later.Serves (.ofModule m s.features) m inst := by
  have hvalid := Module.valid_of_validate h.valid
  have hlink := link_eq_ok_iff.mp h.link
  have hcovers := covers_of_allocate hvalid hlink h.allocate
  have hallocated := (hwf.link h.valid h.link h.memories h.allocate).sized
  obtain ⟨added, hadded, rfl⟩ := exists_allocation h.allocate
  have hexports := fun exported val =>
    @Allocation.lookup_exports_iff s m s.features name imports externs inst
    added exported val hadded h.valid
  -- The module instance comes last, so the addresses of everything else suffice without
  -- it.
  have hmodule : (s.extend added).Extends False ((s.extend added).addModule inst) :=
    { Extends.refl (s.extend added) with modules := .push fun _ => rfl }
  have hbacks := hadded.backs hvalid hlink hglobals
    ⟨hallocated.tables, hallocated.memories⟩ hsizes
  constructor
  · refine ⟨fun kind size hsize =>
      ⟨hcovers.length kind size hsize, _, hadded.addrs_eq hsize, ?_⟩, ?_, hexports⟩
    · exact Allocation.fresh_addrs (hadded.arenaSize_eq kind ▸ hsizes kind)
    · exact fun i global hglobal => hadded.initial hvalid hlink (hsizes .global) hglobal
  · intro later hlater hsized
    have hext := hmodule.trans hlater
    refine serves_of_backs (fun kind => ?_) hvalid hexports
    exact (hbacks kind).imp fun _ _ hentry => hentry.of_extends hext hsized

end Store

namespace Session

/-- Static and runtime index spaces agree for ever.  An instantiation that succeeds
gives each index space the extern values of its kind, in their order, and then the next
addresses of the store; globals begin with the values that their initializers name;
exports have the names, kinds and addresses that the module says.  What stands under the
address of an index has the static type of the index as soon as it is allocated and
whatever public operations follow, so that an export can always be linked to an import
of its own type.  All of it holds while addresses suffice. -/
theorem index_spaces_agree
    {s s' : Session} {m : Module} {name : String} {externs : List ExternVal}
    {choice : ContextChoice} {bound : Nat} {inst : ModuleInst}
    (hs : s.Reachable .trivial False)
    (hstep : s.step bound (.instantiate (some m) name externs choice) =
      (.module inst, s')) (hsizes : ∀ kind, s'.store.arenaSize kind ≤ UInt32.size) :
    ∃ allocated, s.store.allocate m name externs = some (allocated, inst) ∧
      s.store.Instantiates m externs inst allocated ∧
      allocated.Serves (.ofModule m s.store.features) m inst ∧
      ∀ later, s'.Leads .trivial False later →
        later.store.Serves (.ofModule m s.store.features) m inst := by
  have hperform : Engine.perform bound .background
        (.instantiate (some m) name externs choice) s =
      .ok (.module inst) s' := by
    unfold step at hstep
    split at hstep
    · rename_i hperform
      obtain ⟨rfl, rfl⟩ := Prod.mk.inj hstep
      exact hperform
    · cases hstep
  obtain ⟨inst', start, t, hprepare, hevolves, hresponse⟩ :=
    Engine.perform_instantiate_eq_ok hperform hs.lawful
  have hends := Operation.prepareEnds (s.openContext .background choice).2 name
    externs (some m)
  rw [hprepare] at hends
  cases hends with
  | @prepared _ imports allocated _ applied _ _ hadmits hsegments happly _ _ ht =>
      rw [(ComesTo.openContext s .background choice).store] at hadmits
      have hvalid := Module.valid_of_validate hadmits.valid
      have hcovers := Store.covers_of_allocate hvalid
        (Store.link_eq_ok_iff.mp hadmits.link) hadmits.allocate
      have happlied : Store.Evolves .trivial False False allocated applied :=
        Store.evolves_of_applySegments happly (hcovers.range .func)
      have hstore : Store.Evolves .trivial False False allocated s'.store :=
        happlied.trans (ht.store ▸ hevolves)
      have hext := hstore.extension
      have hsizes' (kind : ExternKind) : allocated.arenaSize kind ≤ UInt32.size :=
        Nat.le_trans (hext.arenaSize_le kind) (hsizes kind)
      have hglobals : s.store.GlobalsTyped := by
        have hbefore : s.store.Extends False allocated := .allocate hadmits.allocate
        exact hs.globalsTyped (Nat.le_trans hbefore.globals.size_le (hsizes' .global))
      obtain ⟨_, hkept, rfl⟩ :=
        hext.modules _ _ (Store.module_of_allocate hadmits.allocate)
      obtain rfl : inst = inst' := by simpa [hkept] using Response.module.inj hresponse
      obtain ⟨hinstantiates, hserves⟩ :=
        hadmits.instantiates hglobals hs.wellFormed hsizes'
      have hwf := hs.wellFormed.link hadmits.valid hadmits.link hadmits.memories
        hadmits.allocate
      refine ⟨allocated, hadmits.allocate, hinstantiates,
        hserves allocated (.refl _) hwf.sized, ?_⟩
      intro later hlater
      have hlawful := hstore.lawful (hs.lawful.allocate hadmits.allocate)
      have hall := hstore.trans (hlater.evolves hlawful)
      exact hserves later.store hall.extension (hall.wellFormed hwf).sized

end Session

/-- A module with an import of two kinds, a table, and a global that begins with the
value of an imported one. -/
def Module.mirror : Module where
  types := [some ⟨[.i32], [.i32]⟩]
  imports := [some ⟨"host", "echo", .func 0⟩,
    some ⟨"relay", "seven", .global (some ⟨.i32, false⟩)⟩]
  tables := [some ⟨TableType.funcref, some ⟨2, some 9⟩⟩]
  globals := [some ⟨some ⟨.i32, true⟩, some (.globalGet 0)⟩]
  exports := [some ⟨.table, "table", 0⟩, some ⟨.func, "echo", 0⟩]

namespace Session

/-- The index spaces of a mirror are served after its table has grown. -/
theorem mirror_serves_after_growth :
    ∃ inst allocated s', relay.step 9 (.instantiate (some .mirror) "mirror" [⟨.func, 0⟩,
      ⟨.global, 0⟩] .background) =
        (.module inst, s') ∧
      relay.store.Instantiates .mirror [⟨.func, 0⟩, ⟨.global, 0⟩] inst allocated ∧
      (s'.step 2 (.tableGrow 0 3)).2.store.Serves
        (.ofModule .mirror relay.store.features) .mirror inst := by
  have hruns : (match relay.step 9
      (.instantiate (some .mirror) "mirror" [⟨.func, 0⟩, ⟨.global, 0⟩] .background) with
      | (.module _, s') => s'.store.functions.size == 2 && s'.store.tables.size == 1 &&
          s'.store.memories.size == 0 && s'.store.globals.size == 2
      | _ => false) = true := by decide +kernel
  have hreachable := reachable_relay .trivial False
  generalize relay = s at *
  split at hruns
  · rename_i inst s' hstep
    simp only [Bool.and_eq_true, beq_iff_eq] at hruns
    obtain ⟨⟨⟨hfunctions, htables⟩, hmemories⟩, hglobals⟩ := hruns
    have hsizes (kind : ExternKind) : s'.store.arenaSize kind ≤ UInt32.size := by
      cases kind <;> simp [Store.arenaSize, hfunctions, htables, hmemories, hglobals,
        UInt32.size]
    obtain ⟨allocated, -, hinstantiates, -, hserves⟩ :=
      index_spaces_agree hreachable hstep hsizes
    exact ⟨inst, allocated, s', hstep, hinstantiates,
      hserves _ (.step .refl 2 (.plain trivial))⟩
  · cases hruns

/-- After `2 ^ 32` globals the addresses of the late module are not fresh, and under the
first of them stands a global that is not of its static type: the export cannot be
linked. -/
theorem globals_shared_beyond_addresses :
    (crowded (2 ^ 32)).Reachable .trivial False ∧ ∃ inst s',
      (crowded (2 ^ 32)).step 2 (.instantiate (some .late) "late" [] .background) =
        (.module inst, s') ∧
      inst.globals = [0, 1, 2] ∧ (crowded (2 ^ 32)).store.globals.size = 2 ^ 32 ∧
      (Context.ofModule .late (crowded (2 ^ 32)).store.features).externTypes .global =
        [some (.global ⟨.i64, false⟩), some (.global ⟨.i64, false⟩),
          some (.global ⟨.i32, true⟩)] ∧
      s'.store.checkExtern (.global ⟨.i64, false⟩) ⟨.global, 0⟩ ≠ .ok () ∧
      inst.exports.lookup "first" = some ⟨.global, 0⟩ ∧
      s'.store.link [.global ⟨.i64, false⟩] [⟨.global, 0⟩] ≠ .ok () := by
  refine ⟨reachable_crowded .trivial False _, ?_⟩
  generalize hcount : 2 ^ 32 = count
  obtain ⟨hstep, rest, hstore, -⟩ := step_late hcount.symm
  refine ⟨.late, late count, hstep, rfl, ?_, rfl, ?_, rfl, ?_⟩
  · rw [crowded_eq]
    exact Array.size_replicate
  · rw [hstore]
    exact fun h => nomatch h
  · rw [hstore]
    exact fun h => nomatch h

end Session
end WebAssembly
