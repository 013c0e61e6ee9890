import WebAssembly.Proofs.CoupledInvocation

/-!
# Invocations are confined

An invocation reaches a part of the store: the function, the module instances of the
functions with bodies that it comes to, and what these list and hold in their tables.
It writes only into the memories and globals of that part, and nothing outside makes a
difference to it.
-/

namespace WebAssembly

namespace Store

variable {region : Region}

/-- What the code of a function can come to: the least closed region with the
function. -/
inductive Closure (s : Store) (root : UInt32) : Member → Prop
  | root : Closure s root (.function root)
  | owner {addr f} : Closure s root (.function addr) →
    s.functions[addr.toNat]? = some f → f.kind = .wasm →
    Closure s root (.module f.module)
  | listed {module inst addr} : Closure s root (.module module) →
    s.modules[module.toNat]? = some inst →
    addr ∈ inst.functions → Closure s root (.function addr)
  | slot {module inst table t addr} : Closure s root (.module module) →
    s.modules[module.toNat]? = some inst →
    inst.tables.head? = some table → s.tables[table.toNat]? = some t →
    some addr ∈ t.slots →
      Closure s root (.function addr)

theorem isClosed_closure (s : Store) (root : UInt32) :
    Region.IsClosed (s.Closure root) s where
  owner := .owner
  listed := .listed
  slot := by
    rintro table t addr ⟨module, inst, hmodule, hinst, htable⟩ ht hslot
    exact .slot hmodule hinst htable ht hslot

theorem closure_le
    {s : Store} {root : UInt32} (hclosed : region.IsClosed s)
    (hroot : region (.function root)) {member : Member} (h : s.Closure root member) :
    region member := by
  induction h with
  | root => exact hroot
  | owner _ hf hkind ih => exact hclosed.owner ih hf hkind
  | listed _ hinst haddr ih => exact hclosed.listed ih hinst haddr
  | slot _ hinst htable ht hslot ih =>
      exact hclosed.slot ⟨_, _, ih, hinst, htable⟩ ht hslot

/-- The host functions of the region perform no command on the store. -/
def HostsDetached (s : Store) (region : Region) : Prop :=
  ∀ {addr f host}, region (.function addr) → s.functions[addr.toNat]? = some f →
    f.kind = .host →
    f.host = some host → ∀ params, (host params).Within (· = .cancel)

/-- The stores agree on what the region can see. -/
structure AgreesOn (region : Region) (s s' : Store) : Prop where
  functions : ∀ addr, region (.function addr) →
    s'.functions[addr.toNat]? = s.functions[addr.toNat]?
  modules : ∀ addr, region (.module addr) →
    s'.modules[addr.toNat]? = s.modules[addr.toNat]?
  tables : ∀ addr, s.TableOf region addr →
    s'.tables[addr.toNat]? = s.tables[addr.toNat]?
  memories : ∀ addr, s.MemoryOf region addr →
    s'.memories[addr.toNat]? = s.memories[addr.toNat]?
  globals : ∀ addr, s.GlobalOf region addr →
    s'.globals[addr.toNat]? = s.globals[addr.toNat]?

/-- Nothing has changed but memories and globals of the region. -/
structure Confined (region : Region) (s t : Store) : Prop where
  functions : t.functions = s.functions
  tables : t.tables = s.tables
  modules : t.modules = s.modules
  memoriesSize : t.memories.size = s.memories.size
  globalsSize : t.globals.size = s.globals.size
  memories : ∀ index : Nat, (∀ addr, s.MemoryOf region addr → addr.toNat ≠ index) →
    t.memories[index]? = s.memories[index]?
  globals : ∀ index : Nat, (∀ addr, s.GlobalOf region addr → addr.toNat ≠ index) →
    t.globals[index]? = s.globals[index]?

theorem AgreesOn.refl (s : Store) : s.AgreesOn region s where
  functions := fun _ _ => rfl
  modules := fun _ _ => rfl
  tables := fun _ _ => rfl
  memories := fun _ _ => rfl
  globals := fun _ _ => rfl

theorem Confined.refl (s : Store) : s.Confined region s where
  functions := rfl
  tables := rfl
  modules := rfl
  memoriesSize := rfl
  globalsSize := rfl
  memories := fun _ _ => rfl
  globals := fun _ _ => rfl

/-- The same entry is written into both arenas where they agree on whether there is
one. -/
theorem getElem?_setIfInBounds_congr
    {α : Type} {arena arena' : Array α} {index : Nat}
    (h : arena'[index]? = arena[index]?) (position : Nat) (a : α) :
    (arena'.setIfInBounds position a)[index]? =
      (arena.setIfInBounds position a)[index]? := by
  rw [Array.getElem?_setIfInBounds, Array.getElem?_setIfInBounds]
  by_cases hindex : position = index
  · subst hindex
    have hsize : arena'.size ≤ position ↔ arena.size ≤ position := by
      rw [← Array.getElem?_eq_none_iff, ← Array.getElem?_eq_none_iff, h]
    by_cases hlt : position < arena.size
    · rw [if_pos rfl, if_pos rfl, if_pos hlt, if_pos (by omega)]
    · rw [if_pos rfl, if_pos rfl, if_neg hlt, if_neg (by omega)]
  · rw [if_neg hindex, if_neg hindex, h]

theorem AgreesOn.setMemory
    {s s' : Store} (h : s.AgreesOn region s') (addr : UInt32) (memory : MemInst) :
    (s.setMemory addr memory).AgreesOn region (s'.setMemory addr memory) where
  functions := h.functions
  modules := h.modules
  tables := h.tables
  memories := fun addr' haddr' =>
    getElem?_setIfInBounds_congr (h.memories addr' haddr') _ _
  globals := h.globals

theorem AgreesOn.setGlobal
    {s s' : Store} (h : s.AgreesOn region s') (addr : UInt32) (g : GlobalInst) :
    (s.setGlobal addr g).AgreesOn region (s'.setGlobal addr g) where
  functions := h.functions
  modules := h.modules
  tables := h.tables
  memories := h.memories
  globals := fun addr' haddr' =>
    getElem?_setIfInBounds_congr (h.globals addr' haddr') _ _

theorem Confined.setMemory
    {s t : Store} (h : s.Confined region t) {addr : UInt32}
    (haddr : s.MemoryOf region addr) (memory : MemInst) :
    s.Confined region (t.setMemory addr memory) where
  functions := h.functions
  tables := h.tables
  modules := h.modules
  memoriesSize := by rw [Store.setMemory, Array.size_setIfInBounds, h.memoriesSize]
  globalsSize := h.globalsSize
  memories := by
    intro index hindex
    rw [Store.setMemory, Array.getElem?_setIfInBounds_ne (hindex addr haddr)]
    exact h.memories index hindex
  globals := h.globals

theorem Confined.setGlobal
    {s t : Store} (h : s.Confined region t) {addr : UInt32}
    (haddr : s.GlobalOf region addr) (g : GlobalInst) :
    s.Confined region (t.setGlobal addr g) where
  functions := h.functions
  tables := h.tables
  modules := h.modules
  memoriesSize := h.memoriesSize
  globalsSize := by rw [Store.setGlobal, Array.size_setIfInBounds, h.globalsSize]
  memories := h.memories
  globals := by
    intro index hindex
    rw [Store.setGlobal, Array.getElem?_setIfInBounds_ne (hindex addr haddr)]
    exact h.globals index hindex

/-! What belongs to a region is decided by its module instances. -/

theorem tableOf_congr
    {s t : Store} (h : t.modules = s.modules) :
    t.TableOf region = s.TableOf region := by
  unfold TableOf
  rw [h]

theorem memoryOf_congr
    {s t : Store} (h : t.modules = s.modules) :
    t.MemoryOf region = s.MemoryOf region := by
  unfold MemoryOf
  rw [h]

theorem globalOf_congr
    {s t : Store} (h : t.modules = s.modules) :
    t.GlobalOf region = s.GlobalOf region := by
  unfold GlobalOf
  rw [h]

theorem AgreesOn.memoryOf
    {s s' : Store} (h : s.AgreesOn region s') {addr : UInt32}
    (haddr : s.MemoryOf region addr) :
    s'.MemoryOf region addr := by
  obtain ⟨module, inst, hmodule, hinst, hmemory⟩ := haddr
  exact ⟨module, inst, hmodule, (h.modules module hmodule).trans hinst, hmemory⟩

theorem AgreesOn.globalOf
    {s s' : Store} (h : s.AgreesOn region s') {addr : UInt32}
    (haddr : s.GlobalOf region addr) :
    s'.GlobalOf region addr := by
  obtain ⟨module, inst, hmodule, hinst, hglobal⟩ := haddr
  exact ⟨module, inst, hmodule, (h.modules module hmodule).trans hinst, hglobal⟩

theorem Confined.isClosed
    {s t : Store} (h : s.Confined region t) (hclosed : region.IsClosed s) :
    region.IsClosed t where
  owner := by
    rw [h.functions]
    exact hclosed.owner
  listed := by
    rw [h.modules]
    exact hclosed.listed
  slot := by
    rw [h.tables, tableOf_congr h.modules]
    exact hclosed.slot

/-- Both stores have changed in the region alone, and agree on it. -/
structure Twinned (region : Region) (s s' t t' : Store) : Prop where
  first : s.Confined region t
  second : s'.Confined region t'
  agree : t.AgreesOn region t'

theorem sharing_twinned
    {s s' base : Store} (hclosed : region.IsClosed s) (hbase : s.Confined region base) :
    Sharing region base (Twinned region s s') where
  closed := hbase.isClosed hclosed
  functions := by
    intro t t' addr htwins haddr
    rw [htwins.agree.functions addr haddr, htwins.first.functions, hbase.functions]
    exact ⟨rfl, rfl⟩
  modules := by
    intro t t' addr htwins haddr
    rw [htwins.agree.modules addr haddr, htwins.first.modules, hbase.modules]
    exact ⟨rfl, rfl⟩
  tables := by
    intro t t' addr htwins haddr
    rw [tableOf_congr hbase.modules, ← tableOf_congr htwins.first.modules] at haddr
    rw [htwins.agree.tables addr haddr, htwins.first.tables, hbase.tables]
    exact ⟨rfl, rfl⟩
  memories := by
    intro t t' addr htwins haddr
    rw [memoryOf_congr hbase.modules, ← memoryOf_congr htwins.first.modules] at haddr
    exact htwins.agree.memories addr haddr
  globals := by
    intro t t' addr htwins haddr
    rw [globalOf_congr hbase.modules, ← globalOf_congr htwins.first.modules] at haddr
    exact htwins.agree.globals addr haddr
  setMemory := by
    intro t t' addr htwins haddr memory
    rw [memoryOf_congr hbase.modules] at haddr
    have haddr' : s'.MemoryOf region addr := by
      rw [← memoryOf_congr htwins.second.modules]
      apply htwins.agree.memoryOf
      rw [memoryOf_congr htwins.first.modules]
      exact haddr
    exact ⟨htwins.first.setMemory haddr memory, htwins.second.setMemory haddr' memory,
      htwins.agree.setMemory addr memory⟩
  setGlobal := by
    intro t t' addr htwins haddr g
    rw [globalOf_congr hbase.modules] at haddr
    have haddr' : s'.GlobalOf region addr := by
      rw [← globalOf_congr htwins.second.modules]
      apply htwins.agree.globalOf
      rw [globalOf_congr htwins.first.modules]
      exact haddr
    exact ⟨htwins.first.setGlobal haddr g, htwins.second.setGlobal haddr' g,
      htwins.agree.setGlobal addr g⟩

end Store

/-! ## Coupled runs in stores that agree on a region -/

/-- The sessions have the same contexts, and their stores have changed in the region
alone and agree on it. -/
structure Session.Twinned (region : Region) (s s' : Store) (t t' : Session) : Prop where
  store : Store.Twinned region s s' t.store t'.store
  contexts : t.SameContexts t'

theorem Session.Twinned.cancel
    {region : Region} {s s' : Store} {t t' : Session} (h : Twinned region s s' t t') :
    Twinned region s s' t.cancel t'.cancel where
  store := by
    rw [store_cancel, store_cancel]
    exact h.store
  contexts := h.contexts.cancel

namespace Coupling

variable {region : Region} {setting : Setting} {s s' : Store}

/-- Two runs under one setting, from stores that agree on a region. -/
def twinned (region : Region) (setting : Setting) (s s' : Store) : Coupling where
  region := region
  first := setting
  second := setting
  Sessions := Session.Twinned region s s'
  Clocks := fun clock clock' => clock'.steps = clock.steps
  Common := fun _ => True
  Cut := fun _ _ _ => False

theorem isValid_twinned (hclosed : region.IsClosed s)
    (hhosts : s.HostsDetached region) :
    (twinned region setting s s').IsValid where
  sharing := by
    intro t t' h
    refine ⟨Store.Twinned region s s', Store.sharing_twinned hclosed h.store.first,
      h.store, ?_⟩
    intro u u' hstores
    exact ⟨hstores, { h.contexts with }⟩
  observe := fun _ h => ⟨h.store, { h.contexts with }⟩
  admits := by
    rintro _ ⟨t, t', function, f, host, params, h, hfunction, hf, hkind, hhost, rfl⟩
    rw [h.store.first.functions] at hf
    refine admits_of_within ?_ (hhosts hfunction hf hkind hhost params)
    rintro _ rfl _ fuel u u' hsessions
    cases fuel with
    | zero => exact SessionResult.alike_error hsessions _
    | succ fuel => exact SessionResult.alike_ok hsessions.cancel _
  ordinary := fun _ => trivial
  exhausted := trivial
  ceiling := fun _ => .of_iff Iff.rfl trivial
  interrupt := by
    intro t t' reason h
    refine .of_iff (iff_of_eq (congrArg (· = some reason) ?_)) trivial
    unfold twinned Setting.interruption
    rw [h.contexts.doneReason]
  record := fun _ _ hrelated => hrelated.clocks
  count := by
    intro m m' instr hrelated hroom
    have hsteps : m'.steps = m.steps := hrelated.clocks
    refine ⟨?_, congrArg setting.tick hsteps⟩
    rw [hsteps]
    exact hroom
  spent := by
    intro m m' instr hrelated hfull
    have hsteps : m'.steps = m.steps := hrelated.clocks
    rw [hsteps]
    exact .inl ⟨hfull, trivial⟩
  later := fun hcut => hcut.elim
  grows := fun hcut => hcut.elim

end Coupling

namespace Session

/-- Stores that agree on what a function can come to cannot be told apart by an
invocation of it. -/
theorem invoke_twinned
    {s s' : Session} {region : Region} {function : UInt32}
    (hfunction : region (.function function)) (hclosed : region.IsClosed s.store)
    (hhosts : s.store.HostsDetached region) (hagree : s.store.AgreesOn region s'.store)
    (hcontexts : s.SameContexts s') (config : EngineConfig) (context : ContextRef)
    (args : List Val) (fuel : Nat) :
    SessionResult.Alike (Twinned region s.store s'.store)
      (Engine.invoke fuel context function args (s.withEngine config))
      (Engine.invoke fuel context function args (s'.withEngine config)) := by
  have hsessions : Twinned region s.store s'.store (s.withEngine config)
      (s'.withEngine config) :=
    { store := ⟨{ Store.Confined.refl s.store with },
      { Store.Confined.refl s'.store with }, { hagree with }⟩
      contexts := { hcontexts with } }
  rw [(Engine.agrees fuel).invoke]
  cases fuel with
  | zero => exact SessionResult.alike_error hsessions _
  | succ fuel =>
      have hrefusal : (s'.withEngine config).store.refusal function args =
          (s.withEngine config).store.refusal function args :=
        Store.refusal_congr (hagree.functions function hfunction) args
      rw [Reference.invoke_succ_eq rfl, Reference.invoke_succ_eq rfl, hrefusal]
      cases (s.withEngine config).store.refusal function args with
      | some error => exact SessionResult.alike_error hsessions error
      | none =>
          have hvalid : (Coupling.twinned region { config, context } s.store
              s'.store).IsValid :=
            Coupling.isValid_twinned hclosed hhosts
          have hlogs : (Coupling.twinned region { config, context } s.store
              s'.store).Logs := by
            intro t t' event h
            unfold Coupling.twinned
            split
            · exact ⟨h.store, { h.contexts with }⟩
            · exact h
          obtain ⟨_, _, _, hcut⟩ | ⟨-, halike⟩ :=
            hvalid.invoke hlogs hsessions rfl hfunction args fuel
          · exact hcut.elim
          · exact halike

/-- An invocation is confined to what its function can come to.  It changes nothing but
memories and globals of module instances there, however it ends; and in every other
session that agrees on them, and on the contexts of calls, it gives the same results or
the same error and leaves the same contents. -/
theorem invoke_confined
    (s : Session) (function : UInt32)
    (hhosts : s.store.HostsDetached (s.store.Closure function)) (config : EngineConfig)
    (context : ContextRef) (args : List Val) (fuel : Nat) :
    Ends (Engine.invoke fuel context function args) (s.withEngine config)
      (fun _ t => s.store.Confined (s.store.Closure function) t.store)
      (fun _ t => s.store.Confined (s.store.Closure function) t.store) ∧
    ∀ s' : Session, s.store.AgreesOn (s.store.Closure function) s'.store →
      s.SameContexts s' →
      SessionResult.Alike (fun t t' =>
        t.store.AgreesOn (s.store.Closure function) t'.store)
        (Engine.invoke fuel context function args (s.withEngine config))
        (Engine.invoke fuel context function args (s'.withEngine config)) := by
  have hclosed := s.store.isClosed_closure function
  constructor
  · have htwins := invoke_twinned .root hclosed hhosts (Store.AgreesOn.refl s.store)
        ⟨rfl, rfl⟩ config context args fuel
    obtain ⟨t, t', h, ⟨values, hok, -⟩ | ⟨error, herror, -⟩⟩ := htwins
    · exact Ends.of_eq_ok hok h.store.first
    · exact Ends.of_eq_error herror h.store.first
  · intro s' hagree hcontexts
    have htwins := invoke_twinned .root hclosed hhosts hagree hcontexts config
      context args fuel
    exact htwins.mono fun t t' h => h.store.agree

/-- Two module instances in one store.  The function of the first one calls a host
function and assigns to its own global; the global of the second one has the given
value. -/
def neighbours (value : Val) : Session where
  store := {
    functions := #[
      { kind := .host
        type := some {}
        name := "signal"
        host := some fun _ => .perform .cancel fun _ => .done [] },
      { kind := .wasm
        type := some ⟨[], [.i32]⟩
        name := "work"
        body := [.call 0, .const .i32 7, .globalSet 0, .globalGet 0] }]
    globals := #[⟨⟨.i32, true⟩, .ofU32 0⟩, ⟨⟨.i32, true⟩, value⟩]
    modules := #[
      { name := "left", addr := 0, types := [], functions := [0, 1], tables := [],
        memories := [], globals := [0]
        exports := [] },
      { name := "right", addr := 1, types := [], functions := [], tables := [],
        memories := [], globals := [1]
        exports := [] }] }

/-- What the function of the first instance comes to. -/
def leftRegion : Region
  | .function _ => True
  | .module addr => addr = 0

theorem isClosed_leftRegion (value : Val) :
    leftRegion.IsClosed (neighbours value).store where
  owner := by
    intro addr f _ hf _
    have hmem := Array.mem_of_getElem? hf
    simp only [neighbours, List.mem_toArray, List.mem_cons, List.not_mem_nil,
      or_false] at hmem
    obtain rfl | rfl := hmem
    · rfl
    · rfl
  listed := fun _ _ _ => trivial
  slot := fun _ _ _ => trivial

theorem agreesOn_neighbours (value value' : Val) :
    (neighbours value).store.AgreesOn ((neighbours value).store.Closure 1)
      (neighbours value').store where
  functions := fun _ _ => rfl
  modules := fun _ _ => rfl
  tables := fun _ _ => rfl
  memories := fun _ _ => rfl
  globals := by
    rintro addr ⟨module, inst, hmodule, hinst, hglobal⟩
    obtain rfl : module = 0 :=
      Store.closure_le (isClosed_leftRegion value) trivial hmodule
    obtain rfl := Option.some.inj hinst
    obtain rfl : addr = 0 := List.mem_singleton.mp hglobal
    rfl

/-- The value of the other global makes no difference to the function of the first
instance. -/
theorem neighbours_confined :
    ∃ t t', Engine.invoke 9 .background 1 [] ((neighbours (.ofU32 1)).withEngine {}) =
        .ok [.ofU32 7] t ∧
      Engine.invoke 9 .background 1 [] ((neighbours (.ofU32 2)).withEngine {}) =
        .ok [.ofU32 7] t' ∧
      (neighbours (.ofU32 1)).store.Confined
        ((neighbours (.ofU32 1)).store.Closure 1) t.store ∧
      t.store.AgreesOn ((neighbours (.ofU32 1)).store.Closure 1) t'.store := by
  have hruns : (match Engine.invoke 9 .background 1 []
      ((neighbours (.ofU32 1)).withEngine {}) with
      | .ok values _ => values == [.ofU32 7]
      | .error _ _ => false) = true := by decide +kernel
  have hhosts : (neighbours (.ofU32 1)).store.HostsDetached
      ((neighbours (.ofU32 1)).store.Closure 1) := by
    intro addr f host _ hf hkind hhost params
    have hmem := Array.mem_of_getElem? hf
    simp only [neighbours, List.mem_toArray, List.mem_cons, List.not_mem_nil,
      or_false] at hmem
    obtain rfl | rfl := hmem
    · obtain rfl := Option.some.inj hhost
      exact .perform rfl (fun _ _ _ => Command.noConfusion) fun _ => .done
    · cases hkind
  have hagree := agreesOn_neighbours (.ofU32 1) (.ofU32 2)
  have hcontexts : (neighbours (.ofU32 1)).SameContexts (neighbours (.ofU32 2)) :=
    ⟨rfl, rfl⟩
  generalize neighbours (.ofU32 1) = s, neighbours (.ofU32 2) = s', 9 = fuel at *
  obtain ⟨hends, hother⟩ := invoke_confined s 1 hhosts {} .background [] fuel
  obtain ⟨t, t', hfinal, ⟨values, hok, hok'⟩ | ⟨error, herror, -⟩⟩ :=
    hother s' hagree hcontexts
  · rw [hok] at hruns
    obtain rfl : values = [.ofU32 7] := eq_of_beq hruns
    exact ⟨t, t', hok, hok', hends.onOk hok, hfinal⟩
  · rw [herror] at hruns
    cases hruns

end Session
end WebAssembly
