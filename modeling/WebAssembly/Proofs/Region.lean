import WebAssembly.Proofs.Evolution
import WebAssembly.Proofs.Reference

/-!
# What code can see of a store

Code reaches the store only through the module instance in which it runs: its functions,
the functions in its table, its memory and its globals.  A region is a set of functions
and module instances; it is closed if nothing that its code can call lies outside.  Two
stores that share what a closed region sees cannot be told apart by an instruction of
that region, and what the instruction writes it writes into both of them.
-/

namespace WebAssembly

/-- A function or a module instance of a store, by its address. -/
inductive Member
  | function (addr : UInt32)
  | module (addr : UInt32)

/-- A set of functions and module instances. -/
abbrev Region := Member → Prop

namespace Store

def TableOf (s : Store) (region : Region) (addr : UInt32) : Prop :=
  ∃ module inst, region (.module module) ∧ s.modules[module.toNat]? = some inst ∧
    inst.tables.head? = some addr

def MemoryOf (s : Store) (region : Region) (addr : UInt32) : Prop :=
  ∃ module inst, region (.module module) ∧ s.modules[module.toNat]? = some inst ∧
    inst.memories.head? = some addr

def GlobalOf (s : Store) (region : Region) (addr : UInt32) : Prop :=
  ∃ module inst, region (.module module) ∧ s.modules[module.toNat]? = some inst ∧
    addr ∈ inst.globals

end Store

/-- The region holds the module instance of each of its functions, and every function
that code of one of its module instances can call. -/
structure Region.IsClosed (region : Region) (s : Store) : Prop where
  owner : ∀ {addr f}, region (.function addr) → s.functions[addr.toNat]? = some f →
    f.kind = .wasm →
    region (.module f.module)
  listed : ∀ {module inst addr}, region (.module module) →
    s.modules[module.toNat]? = some inst →
    addr ∈ inst.functions → region (.function addr)
  slot : ∀ {table t addr}, s.TableOf region table → s.tables[table.toNat]? = some t →
    some addr ∈ t.slots →
    region (.function addr)

/-- The region of everything. -/
def Region.all : Region := fun _ => True

theorem Region.isClosed_all (s : Store) : Region.all.IsClosed s :=
  ⟨fun _ _ _ => trivial, fun _ _ _ => trivial, fun _ _ _ => trivial⟩

/-- In stores that are so related, a closed region finds the functions, module instances
and tables of a given store, and equal memories and globals; and they stay related when
the region writes the same into both. -/
structure Sharing (region : Region) (base : Store)
    (W : Store → Store → Prop) : Prop where
  closed : region.IsClosed base
  functions : ∀ {s s' addr}, W s s' → region (.function addr) →
    s.functions[addr.toNat]? = base.functions[addr.toNat]? ∧
      s'.functions[addr.toNat]? = base.functions[addr.toNat]?
  modules : ∀ {s s' addr}, W s s' → region (.module addr) →
    s.modules[addr.toNat]? = base.modules[addr.toNat]? ∧
    s'.modules[addr.toNat]? = base.modules[addr.toNat]?
  tables : ∀ {s s' addr}, W s s' → base.TableOf region addr →
    s.tables[addr.toNat]? = base.tables[addr.toNat]? ∧
    s'.tables[addr.toNat]? = base.tables[addr.toNat]?
  memories : ∀ {s s' addr}, W s s' → base.MemoryOf region addr →
    s'.memories[addr.toNat]? = s.memories[addr.toNat]?
  globals : ∀ {s s' addr}, W s s' → base.GlobalOf region addr →
    s'.globals[addr.toNat]? = s.globals[addr.toNat]?
  setMemory : ∀ {s s' addr}, W s s' → base.MemoryOf region addr → ∀ memory,
    W (s.setMemory addr memory) (s'.setMemory addr memory)
  setGlobal : ∀ {s s' addr}, W s s' → base.GlobalOf region addr → ∀ g,
    W (s.setGlobal addr g) (s'.setGlobal addr g)

def Store.refill (s : Store) (memories : Array MemInst)
    (globals : Array GlobalInst) : Store :=
  { s with memories, globals }

/-- The stores are two given ones, with the same memories and globals put into both. -/
def Store.Refilled (s s' t t' : Store) : Prop :=
  ∃ memories globals, t = s.refill memories globals ∧ t' = s'.refill memories globals

/-- Stores with the same functions, tables and module instances share everything once
their memories and globals are the same. -/
theorem sharing_refilled
    {s s' : Store} (hfunctions : s'.functions = s.functions)
    (htables : s'.tables = s.tables) (hmodules : s'.modules = s.modules) :
    Sharing Region.all s (s.Refilled s') where
  closed := Region.isClosed_all s
  functions := by
    rintro _ _ addr ⟨memories, globals, rfl, rfl⟩ _
    exact ⟨rfl, congrArg (·[addr.toNat]?) hfunctions⟩
  modules := by
    rintro _ _ addr ⟨memories, globals, rfl, rfl⟩ _
    exact ⟨rfl, congrArg (·[addr.toNat]?) hmodules⟩
  tables := by
    rintro _ _ addr ⟨memories, globals, rfl, rfl⟩ _
    exact ⟨rfl, congrArg (·[addr.toNat]?) htables⟩
  memories := by
    rintro _ _ _ ⟨memories, globals, rfl, rfl⟩ _
    rfl
  globals := by
    rintro _ _ _ ⟨memories, globals, rfl, rfl⟩ _
    rfl
  setMemory := by
    rintro _ _ addr ⟨memories, globals, rfl, rfl⟩ _ memory
    exact ⟨memories.setIfInBounds addr.toNat memory, globals, rfl, rfl⟩
  setGlobal := by
    rintro _ _ addr ⟨memories, globals, rfl, rfl⟩ _ g
    exact ⟨memories, globals.setIfInBounds addr.toNat g, rfl, rfl⟩

/-- The cause is neither a limit of the run, nor the end of a body, nor the bound on the
length of the run. -/
def Abort.IsOrdinary : Abort → Prop
  | .trap .callStackOverflow | .trap .stepBudget | .trap (.contextDone _) => False
  | .bug (.branchPast _) | .bug (.activationMissing _) => False
  | .exhausted => False
  | _ => True

def Machine.update (m : Machine) (store : Store) (locals : Array Val) : Machine :=
  { m with session := m.session.withStore store, locals }

namespace Stack

theorem eq_noValue_of_pop
    {stack : Stack} {cause : Bug} (h : stack.pop = .error cause) :
    cause = .noValue := by
  unfold pop at h
  split at h
  · cases h
  · exact (Except.error.inj h).symm

theorem eq_wrongKind_of_popTyped
    {stack : Stack} {type : ValueType} {cause : Bug}
    (h : stack.popTyped type = .error cause) :
    cause = .noValue ∨ ∃ v, cause = .wrongKind type v := by
  unfold popTyped at h
  split at h
  · split at h
    · cases h
    · exact .inr ⟨_, (Except.error.inj h).symm⟩
  · rename_i hpop
    rw [← Except.error.inj h]
    exact .inl (eq_noValue_of_pop hpop)

theorem eq_noValue_of_popOnto
    {stack : Stack} {acc : List Val} {count : Nat} {cause : Bug}
    (h : popOnto acc count stack = .error cause) :
    cause = .noValue := by
  fun_induction popOnto acc count stack with
  | case1 => cases h
  | case2 _ _ _ _ ih => exact ih h
  | case3 => exact (Except.error.inj h).symm

end Stack

namespace Exec

variable {α β : Type} {W : Store → Store → Prop} {P : α → Prop} {Q : β → Prop}
  {x : Exec α} {f : α → Exec β}

/-- In related stores, with the same locals and the same stack, the step does the same.
It changes nothing but the store, the locals and the stack, and its failures are
ordinary ones. -/
def Shared (W : Store → Store → Prop) (P : α → Prop) (x : Exec α) : Prop :=
  ∀ (m m' : Machine) (stack : Stack), W m.session.store m'.session.store →
    m'.locals = m.locals →
    ∃ store store' locals stack', W store store' ∧
      ((∃ a, P a ∧ x (m.on stack) = .ok a ((m.update store locals).on stack') ∧
        x (m'.on stack) = .ok a ((m'.update store' locals).on stack')) ∨
      ∃ cause : Abort, cause.IsOrdinary ∧
        x (m.on stack) = .error cause ((m.update store locals).on stack') ∧
        x (m'.on stack) = .error cause ((m'.update store' locals).on stack'))

theorem Shared.bind
    (hx : Shared W P x) (hf : ∀ a, P a → Shared W Q (f a)) : Shared W Q (x >>= f) := by
  intro m m' stack hW hlocals
  obtain ⟨store, store', locals, stack', hW', ⟨a, ha, hok, hok'⟩ | ⟨cause, hcause,
      herror, herror'⟩⟩ :=
    hx m m' stack hW hlocals
  · have hnext := hf a ha (m.update store locals) (m'.update store' locals)
        stack' hW' rfl
    rw [bind_eq_of_eq_ok hok, bind_eq_of_eq_ok hok']
    exact hnext
  · refine ⟨store, store', locals, stack', hW', .inr ⟨cause, hcause, ?_, ?_⟩⟩
    · exact bind_eq_of_eq_error herror
    · exact bind_eq_of_eq_error herror'

theorem Shared.mono
    {P' : α → Prop} (hx : Shared W P x) (h : ∀ a, P a → P' a) : Shared W P' x := by
  intro m m' stack hW hlocals
  obtain ⟨store, store', locals, stack', hW', ⟨a, ha, hok⟩ | herror⟩ :=
    hx m m' stack hW hlocals
  · exact ⟨store, store', locals, stack', hW', .inl ⟨a, h a ha, hok⟩⟩
  · exact ⟨store, store', locals, stack', hW', .inr herror⟩

theorem shared_pure
    {a : α} (ha : P a) : Shared W P (pure a) := by
  intro m m' stack hW hlocals
  refine ⟨_, _, m.locals, stack, hW, .inl ⟨a, ha, rfl, ?_⟩⟩
  rw [← hlocals]
  rfl

theorem shared_throw
    {cause : Abort} (hcause : cause.IsOrdinary) : Shared W P (throw cause) := by
  intro m m' stack hW hlocals
  refine ⟨_, _, m.locals, stack, hW, .inr ⟨cause, hcause, rfl, ?_⟩⟩
  rw [← hlocals]
  rfl

theorem shared_trap
    {cause : TrapCause} (hcause : (Abort.trap cause).IsOrdinary) :
    Shared W P (trap cause) :=
  shared_throw hcause

theorem shared_bug
    {cause : Bug} (hcause : (Abort.bug cause).IsOrdinary) : Shared W P (bug cause) :=
  shared_throw hcause

theorem shared_present
    {entry : Option α} : Shared W (fun a => entry = some a) (present entry) := by
  cases entry with
  | none => exact shared_bug trivial
  | some a => exact shared_pure rfl

theorem Shared.ite
    {p : Prop} [Decidable p] {y : Exec α} (hx : p → Shared W P x)
    (hy : ¬p → Shared W P y) :
    Shared W P (if p then x else y) := by
  split
  · exact hx ‹p›
  · exact hy ‹¬p›

/-! ## Steps on the stack and on the locals -/

theorem shared_take
    {pop : Stack → Except Bug (α × Stack)}
    (h : ∀ stack cause, pop stack = .error cause → (Abort.bug cause).IsOrdinary) :
    Shared W (fun _ => True) (take pop) := by
  intro m m' stack hW hlocals
  have hsame : m'.update m'.session.store m.locals = m' := by
    rw [← hlocals]
    rfl
  cases hpop : pop stack with
  | error cause =>
      refine ⟨_, _, m.locals, stack, hW, .inr ⟨.bug cause, h stack cause hpop, ?_, ?_⟩⟩
      · simp only [take, Machine.on, hpop]
        rfl
      · rw [hsame]
        simp only [take, Machine.on, hpop]
  | ok result =>
      refine ⟨_, _, m.locals, result.2, hW, .inl ⟨result.1, trivial, ?_, ?_⟩⟩
      · simp only [take, Machine.on, hpop]
        rfl
      · rw [hsame]
        simp only [take, Machine.on, hpop]

theorem shared_pop : Shared W (fun _ => True) pop := by
  apply shared_take
  intro stack cause h
  rw [Stack.eq_noValue_of_pop h]
  trivial

theorem shared_popTyped {type : ValueType} :
    Shared W (fun _ => True) (popTyped type) := by
  apply shared_take
  intro stack cause h
  obtain rfl | ⟨v, rfl⟩ := Stack.eq_wrongKind_of_popTyped h
  · trivial
  · trivial

theorem shared_popMany {count : Nat} : Shared W (fun _ => True) (popMany count) := by
  apply shared_take
  intro stack cause h
  rw [Stack.eq_noValue_of_popOnto h]
  trivial

theorem shared_popU32 : Shared W (fun _ => True) popU32 :=
  shared_popTyped.bind fun _ _ => shared_pure trivial

theorem shared_pushAll {values : List Val} :
    Shared W (fun _ => True) (pushAll values) := by
  intro m m' stack hW hlocals
  refine ⟨_, _, m.locals, stack.pushAll values, hW, .inl ⟨(), trivial, rfl, ?_⟩⟩
  rw [← hlocals]
  rfl

theorem shared_push {v : Val} : Shared W (fun _ => True) (push v) :=
  @shared_pushAll W [v]

/-- A local may be read, since the locals are the same. -/
theorem Shared.local_bind
    {index : Nat} {f : Val → Exec β} (hf : ∀ v, Shared W Q (f v)) :
    Shared W Q (get >>= fun r : Run => present r.locals[index]? >>= f) := by
  intro m m' stack hW hlocals
  have hread := (shared_present.bind fun v _ =>
    hf v : Shared W Q (present m.locals[index]? >>= f))
    m m' stack hW hlocals
  have hsame : (get >>= fun r : Run => present r.locals[index]? >>= f) (m'.on stack) =
      (present m.locals[index]? >>= f) (m'.on stack) := by
    rw [← hlocals]
    rfl
  rw [hsame]
  exact hread

theorem shared_setLocal {index : UInt32} :
    Shared W (fun _ => True) (setLocal index) := by
  apply Shared.local_bind
  intro old
  refine shared_popTyped.bind fun v _ => Shared.bind (P := fun _ => True) ?_
    fun _ _ => shared_pure trivial
  intro m m' stack hW hlocals
  refine ⟨_, _, m.locals.setIfInBounds index.toNat v, stack, hW,
    .inl ⟨(), trivial, rfl, ?_⟩⟩
  rw [← hlocals]
  rfl

/-! ## Steps on the store -/

/-- What is equal in related stores may be read. -/
theorem Shared.read_bind
    {γ : Type} (read : Store → γ) (k : γ → Exec β)
    (hread : ∀ s s', W s s' → read s' = read s)
    (hk : ∀ s s', W s s' → Shared W Q (k (read s))) :
    Shared W Q (store >>= fun s => k (read s)) := by
  intro m m' stack hW hlocals
  have hstep := hk _ _ hW m m' stack hW hlocals
  have hsame : (store >>= fun s => k (read s)) (m'.on stack) = k (read m.session.store)
      (m'.on stack) := by
    rw [← hread _ _ hW]
    rfl
  rw [hsame]
  exact hstep

theorem shared_access
    {result : Except AccessError α} :
    Shared W (fun a => result = .ok a) (access result) := by
  cases result with
  | error cause => exact shared_bug trivial
  | ok a => exact shared_pure rfl

theorem lookup_congr
    {γ : Type} {space : Space} {arena arena' : Array γ} {addr : UInt32}
    (h : arena'[addr.toNat]? = arena[addr.toNat]?) :
    Store.lookup space arena' addr = Store.lookup space arena addr := by
  unfold Store.lookup
  rw [h]

section Store

variable {region : Region} {base : Store} (hshare : Sharing region base W)
  {addr : UInt32}
include hshare

theorem Shared.function_bind
    (haddr : region (.function addr)) {f : FuncInst → Exec β}
    (hf : ∀ g, base.functions[addr.toNat]? = some g → Shared W Q (f g)) :
    Shared W Q (store >>= fun s => access (s.function addr) >>= f) := by
  apply Shared.read_bind (·.function addr) (fun result => access result >>= f)
  · intro s s' hW
    obtain ⟨hs, hs'⟩ := hshare.functions hW haddr
    exact lookup_congr (hs'.trans hs.symm)
  · intro s s' hW
    refine shared_access.bind fun g hg => hf g ?_
    rw [← (hshare.functions hW haddr).1]
    exact Store.lookup_eq_ok_iff.mp hg

theorem Shared.table_bind
    (haddr : base.TableOf region addr) {f : TableInst → Exec β}
    (hf : ∀ t, base.tables[addr.toNat]? = some t → Shared W Q (f t)) :
    Shared W Q (store >>= fun s => access (s.table addr) >>= f) := by
  apply Shared.read_bind (·.table addr) (fun result => access result >>= f)
  · intro s s' hW
    obtain ⟨hs, hs'⟩ := hshare.tables hW haddr
    exact lookup_congr (hs'.trans hs.symm)
  · intro s s' hW
    refine shared_access.bind fun t ht => hf t ?_
    rw [← (hshare.tables hW haddr).1]
    exact Store.lookup_eq_ok_iff.mp ht

theorem Shared.memory_bind
    (haddr : base.MemoryOf region addr) {f : MemInst → Exec β}
    (hf : ∀ memory, Shared W Q (f memory)) :
    Shared W Q (store >>= fun s => access (s.memory addr) >>= f) := by
  apply Shared.read_bind (·.memory addr) (fun result => access result >>= f)
  · intro s s' hW
    exact lookup_congr (hshare.memories hW haddr)
  · intro s s' hW
    exact shared_access.bind fun memory _ => hf memory

theorem Shared.global_bind
    (haddr : base.GlobalOf region addr) {f : GlobalInst → Exec β}
    (hf : ∀ g, Shared W Q (f g)) :
    Shared W Q (store >>= fun s => access (s.global addr) >>= f) := by
  apply Shared.read_bind (·.global addr) (fun result => access result >>= f)
  · intro s s' hW
    exact lookup_congr (hshare.globals hW haddr)
  · intro s s' hW
    exact shared_access.bind fun g _ => hf g

theorem shared_setGlobal
    (haddr : base.GlobalOf region addr) {g : GlobalInst} :
    Shared W (fun _ => True) (modifyStore (·.setGlobal addr g)) := by
  intro m m' stack hW hlocals
  refine ⟨_, _, m.locals, stack, hshare.setGlobal hW haddr g,
    .inl ⟨(), trivial, rfl, ?_⟩⟩
  rw [← hlocals]
  rfl

theorem shared_setMemory
    (haddr : base.MemoryOf region addr) (memory : MemInst) :
    Shared W (fun _ => True) (modifyStore (·.setMemory addr memory)) := by
  intro m m' stack hW hlocals
  refine ⟨_, _, m.locals, stack, hshare.setMemory hW haddr memory,
    .inl ⟨(), trivial, rfl, ?_⟩⟩
  rw [← hlocals]
  rfl

/-- A change in place is the same in both stores, since the memory is. -/
theorem shared_modifyMemory
    (haddr : base.MemoryOf region addr) {change : MemInst → MemInst} :
    Shared W (fun _ => True) (modifyStore (·.modifyMemory addr change)) := by
  intro m m' stack hW hlocals
  have hsame : m'.session.store.memory addr = m.session.store.memory addr :=
    lookup_congr (hshare.memories hW haddr)
  cases hmemory : m.session.store.memory addr with
  | error cause =>
      rw [hmemory] at hsame
      refine ⟨_, _, m.locals, stack, hW, .inl ⟨(), trivial, ?_, ?_⟩⟩
      · rw [modifyStore, Machine.on, Store.modifyMemory_eq_self hmemory]
        rfl
      · rw [modifyStore, Machine.on, Store.modifyMemory_eq_self hsame, ← hlocals]
        rfl
  | ok memory =>
      rw [hmemory] at hsame
      have hstep := shared_setMemory hshare haddr (change memory) m m' stack hW hlocals
      rw [modifyStore, modifyStore, Machine.on, Machine.on] at hstep ⊢
      rw [Store.modifyMemory_eq_setMemory hmemory,
        Store.modifyMemory_eq_setMemory hsame]
      exact hstep

/-! ## Instructions -/

theorem shared_currentModule
    (haddr : region (.module addr)) :
    Shared W (fun inst => base.modules[addr.toNat]? = some inst)
      (currentModule addr) := by
  apply Shared.read_bind (·.modules[addr.toNat]?) present
  · intro s s' hW
    obtain ⟨hs, hs'⟩ := hshare.modules hW haddr
    exact hs'.trans hs.symm
  · intro s s' hW
    rw [(hshare.modules hW haddr).1]
    exact shared_present

end Store

theorem shared_memoryAddr {inst : ModuleInst} :
    Shared W (fun addr => inst.memories.head? = some addr) (memoryAddr inst) := by
  unfold memoryAddr
  split
  · rename_i hmemories
    exact shared_pure (by rw [hmemories, List.head?_cons])
  · exact shared_bug trivial

theorem shared_tableAddr {inst : ModuleInst} :
    Shared W (fun addr => inst.tables.head? = some addr) (tableAddr inst) := by
  unfold tableAddr
  split
  · rename_i htables
    exact shared_pure (by rw [htables, List.head?_cons])
  · exact shared_bug trivial

theorem shared_globalAddr {inst : ModuleInst} {index : UInt32} :
    Shared W (fun addr => addr ∈ inst.globals) (globalAddr inst index) := by
  unfold globalAddr
  split
  · rename_i hglobal
    exact shared_pure (List.mem_of_getElem? (Index.getElem?_of_lookup hglobal))
  · exact shared_bug trivial

section Instructions

variable {region : Region} {base : Store} (hshare : Sharing region base W)
  {module : UInt32} (hmodule : region (.module module))
include hshare hmodule

theorem shared_functionAt
    {inst : ModuleInst} (hinst : base.modules[module.toNat]? = some inst)
    {index : UInt32} :
    Shared W (fun addr => region (.function addr)) (functionAt inst index) := by
  unfold functionAt
  split
  · rename_i hfunction
    have haddr := hshare.closed.listed hmodule hinst
      (List.mem_of_getElem? (Index.getElem?_of_lookup hfunction))
    exact Shared.function_bind hshare haddr fun _ _ => shared_pure haddr
  · exact shared_bug trivial

theorem shared_indirectTarget
    {inst : ModuleInst} (hinst : base.modules[module.toNat]? = some inst)
    {type : UInt32} :
    Shared W (fun addr => region (.function addr)) (indirectTarget inst type) := by
  refine shared_tableAddr.bind fun addr haddr => ?_
  have htable : base.TableOf region addr := ⟨module, inst, hmodule, hinst, haddr⟩
  refine Shared.table_bind hshare htable fun table hentry => shared_popU32.bind
    fun index _ => ?_
  split
  · rename_i function hslot
    have hfunction := hshare.closed.slot htable hentry (Array.mem_of_getElem? hslot)
    refine Shared.function_bind hshare hfunction fun _ _ =>
      shared_present.bind fun _ _ =>
      shared_present.bind fun _ _ => ?_
    exact Shared.ite (fun _ => shared_pure hfunction) fun _ => shared_trap trivial
  · exact shared_trap trivial

theorem shared_plain (instr : Instr) :
    Shared W (fun _ => True) (plain module instr) := by
  have hmemory {inst : ModuleInst} {addr : UInt32}
      (hinst : base.modules[module.toNat]? = some inst)
      (haddr : inst.memories.head? = some addr) : base.MemoryOf region addr :=
        ⟨module, inst, hmodule, hinst, haddr⟩
  have hglobal {inst : ModuleInst} {addr : UInt32}
      (hinst : base.modules[module.toNat]? = some inst)
      (haddr : addr ∈ inst.globals) : base.GlobalOf region addr :=
        ⟨module, inst, hmodule, hinst, haddr⟩
  cases instr with
  | unreachable => exact shared_trap trivial
  | drop => exact shared_pop.bind fun _ _ => shared_pure trivial
  | select =>
      refine shared_popU32.bind fun _ _ => shared_pop.bind fun second _ =>
        shared_pop.bind fun first _ => ?_
      have hbug : Shared W (fun _ : Unit =>
          True) (bug (.selectOperands first second)) := shared_bug trivial
      exact Shared.ite (fun _ => hbug.bind fun _ _ => shared_push) fun _ => shared_push
  | localGet index => exact Shared.local_bind fun _ => shared_push
  | localSet index => exact shared_setLocal.bind fun _ _ => shared_pure trivial
  | localTee index => exact shared_setLocal.bind fun _ _ => shared_push
  | globalGet index =>
      refine (shared_currentModule hshare hmodule).bind fun inst hinst =>
        shared_globalAddr.bind fun addr haddr => ?_
      exact Shared.global_bind hshare (hglobal hinst haddr) fun _ => shared_push
  | globalSet index =>
      refine (shared_currentModule hshare hmodule).bind fun inst hinst =>
        shared_globalAddr.bind fun addr haddr => ?_
      refine Shared.global_bind hshare (hglobal hinst haddr) fun g =>
        shared_popTyped.bind fun v _ => ?_
      exact shared_setGlobal hshare (hglobal hinst haddr)
  | load op arg =>
      refine (shared_currentModule hshare hmodule).bind fun inst hinst =>
        shared_memoryAddr.bind fun addr haddr => ?_
      refine Shared.memory_bind hshare (hmemory hinst haddr) fun memory =>
        shared_popU32.bind fun base _ => ?_
      split
      · exact shared_push
      · exact shared_trap trivial
  | store op arg =>
      refine (shared_currentModule hshare hmodule).bind fun inst hinst =>
        shared_memoryAddr.bind fun addr haddr => ?_
      refine Shared.memory_bind hshare (hmemory hinst haddr) fun memory =>
        shared_pop.bind fun v _ =>
        shared_popU32.bind fun base _ => ?_
      exact Shared.ite (fun _ => shared_modifyMemory hshare (hmemory hinst haddr))
        fun _ => shared_trap trivial
  | memorySize =>
      refine (shared_currentModule hshare hmodule).bind fun inst hinst =>
        shared_memoryAddr.bind fun addr haddr => ?_
      exact Shared.memory_bind hshare (hmemory hinst haddr) fun memory => shared_push
  | memoryGrow =>
      refine shared_popU32.bind fun delta _ =>
        (shared_currentModule hshare hmodule).bind fun inst hinst =>
        shared_memoryAddr.bind fun addr haddr =>
          Shared.memory_bind hshare (hmemory hinst haddr) fun memory => ?_
      split
      · exact (shared_setMemory hshare (hmemory hinst haddr) _).bind
          fun _ _ => shared_push
      · exact shared_push
  | const type bits => exact shared_push
  | unary op =>
      refine shared_popTyped.bind fun a _ => ?_
      split
      · exact shared_push
      · exact shared_trap trivial
  | binary op =>
      refine shared_popTyped.bind fun b _ => shared_popTyped.bind fun a _ => ?_
      split
      · exact shared_push
      · exact shared_trap trivial
  | reserved code => exact shared_bug trivial
  | _ => exact shared_pure trivial

end Instructions

end Exec

/-- What an instruction asks for stays in the region. -/
def Transfer.Within (region : Region) : Transfer → Prop
  | .call function => region (.function function)
  | _ => True

namespace Exec

variable {region : Region} {base : Store} {W : Store → Store → Prop}
  (hshare : Sharing region base W)
include hshare

/-- An instruction of a closed region looks at nothing but what related stores share,
and what it asks for stays in the region. -/
theorem shared_transfer
    {module : UInt32} (hmodule : region (.module module)) (instr : Instr) :
    Shared W (Transfer.Within region) (transfer module instr) := by
  cases instr with
  | block | loop | br | ret => exact shared_pure trivial
  | ifElse | brTable => exact shared_popU32.bind fun _ _ => shared_pure trivial
  | brIf =>
      refine shared_popU32.bind fun condition _ => shared_pure ?_
      split
      · trivial
      · trivial
  | call index =>
      refine (shared_currentModule hshare hmodule).bind fun inst hinst => ?_
      exact (shared_functionAt hshare hmodule hinst).bind fun _ hfunction =>
        shared_pure hfunction
  | callIndirect type =>
      refine (shared_currentModule hshare hmodule).bind fun inst hinst => ?_
      exact (shared_indirectTarget hshare hmodule hinst).bind fun _ hfunction =>
        shared_pure hfunction
  | _ => exact (shared_plain hshare hmodule _).bind fun _ _ => shared_pure trivial

/-! ## Calls -/

theorem Shared.funcInst_bind
    {α : Type} {Q : α → Prop} {function : UInt32}
    (hfunction : region (.function function)) {k : FuncInst → Exec α}
    (hk : ∀ f, base.functions[function.toNat]? = some f → Shared W Q (k f)) :
    Shared W Q (store >>= fun s => present s.functions[function.toNat]? >>= k) := by
  apply Shared.read_bind (·.functions[function.toNat]?)
    (fun entry => present entry >>= k)
  · intro s s' hW
    obtain ⟨hs, hs'⟩ := hshare.functions hW hfunction
    exact hs'.trans hs.symm
  · intro s s' hW
    rw [(hshare.functions hW hfunction).1]
    exact shared_present.bind hk

theorem shared_typeOf
    {function : UInt32} (hfunction : region (.function function)) :
    Shared W (fun _ => True) (typeOf function) :=
  Shared.funcInst_bind hshare hfunction fun _ _ => shared_present.mono
    fun _ _ => trivial

theorem shared_collect
    {function : UInt32} (hfunction : region (.function function)) :
    Shared W (fun _ => True) (collect function) :=
  (shared_typeOf hshare hfunction).bind fun _ _ => shared_popMany

omit hshare in
theorem shared_checkResultTypes {name : String} {type : FuncType} {index : Nat}
    {values : List Val} {types : List ValueType} :
    Shared W (fun _ => True) (checkResultTypes name type index values types) := by
  induction values generalizing index types with
  | nil => exact shared_pure trivial
  | cons v values ih =>
      cases types with
      | nil => exact shared_pure trivial
      | cons expected rest =>
          have htrap : Shared W (fun _ : Unit =>
              True) (trap (.hostResultType name index v type)) := shared_trap trivial
          exact Shared.ite (fun _ => htrap.bind fun _ _ => ih) fun _ => ih

theorem shared_finishHost
    {function : UInt32} (hfunction : region (.function function)) {name : String}
    (hostEnd : HostEnd) :
    Shared W (fun _ => True) (finishHost function name hostEnd) := by
  cases hostEnd with
  | done results =>
      refine (shared_typeOf hshare hfunction).bind fun type _ => ?_
      have hrest : Shared W (fun _ => True)
          (checkResultTypes name type 0 results type.results >>=
            fun _ => pushAll results) :=
        shared_checkResultTypes.bind fun _ _ => shared_pushAll
      have htrap : Shared W (fun _ : Unit =>
          True) (trap (.hostResultCount name results.length type)) :=
        shared_trap trivial
      exact Shared.ite (fun _ => htrap.bind fun _ _ => hrest) fun _ => hrest
  | fail error => exact shared_trap trivial
  | stop cause =>
      cases cause with
      | trap text => exact shared_trap trivial
      | bug text => exact shared_bug trivial
      | crash => exact shared_bug trivial

end Exec

namespace Exec

/-- Takes the arguments of a body, given what was found for its module instance. -/
def receiveBody (f : FuncInst) :
    Except AccessError ModuleInst → Exec (Summons × List Event)
  | .error cause => bug (.functionModule f.name cause)
  | .ok _ => do
    let type ← present f.type
    let params ← popMany type.params.length
    pure (.body f type.results.length params, [])

/-- Takes the arguments of a call that has begun.  The call of a host function is an
event. -/
def receive (f : FuncInst) : Exec (Summons × List Event) :=
  match f.kind with
  | .host => do
    let type ← present f.type
    let params ← popMany type.params.length
    let host ← present f.host
    pure (.host f.name (host params), [.hostCall f.name params])
  | .wasm => do
    receiveBody f ((← store).module f.module)
  | .reserved code => bug (.functionKind code)

def announce (events : List Event) : Exec Unit :=
  onSession (modify fun s => events.foldl Session.observe s)

/-- A call begins by entering the function; what its arguments are is looked at only
then. -/
theorem summon_eq (setting : Setting) (function : UInt32) :
    summon setting function =
      store >>= fun s => present s.functions[function.toNat]? >>= fun f =>
        enter setting f.name >>= fun _ =>
        receive f >>= fun received => announce received.2 >>= fun _ =>
          pure received.1 := by
  refine bind_congr fun s => bind_congr fun f => bind_congr fun _ => ?_
  rw [receive]
  cases f.kind with
  | host =>
      simp only [bind_assoc, pure_bind]
      rfl
  | wasm =>
      simp only [bind_assoc]
      refine bind_congr fun s => ?_
      cases s.module f.module with
      | error cause => rfl
      | ok =>
          simp only [receiveBody, bind_assoc, pure_bind]
          rfl
  | reserved code => rfl

end Exec

/-- What a call comes to belongs to the function that is called. -/
def Summons.Of (f : FuncInst) : Summons → Prop
  | .host name program =>
    name = f.name ∧ f.kind = .host ∧ ∃ host params, f.host = some host ∧
      program = host params
  | .body g _ _ => f.kind = .wasm ∧ g = f

theorem Exec.shared_receive
    {region : Region} {base : Store} {W : Store → Store → Prop}
    (hshare : Sharing region base W) {f : FuncInst}
    (hmodule : f.kind = .wasm → region (.module f.module)) :
    Shared W (fun received => received.1.Of f) (receive f) := by
  unfold receive
  split
  · rename_i hkind
    refine shared_present.bind fun type _ => shared_popMany.bind fun params _ => ?_
    refine shared_present.bind fun host hhost => ?_
    exact shared_pure ⟨rfl, hkind, host, params, hhost, rfl⟩
  · rename_i hkind
    apply Shared.read_bind (·.module f.module) (receiveBody f)
    · intro s s' hW
      obtain ⟨hs, hs'⟩ := hshare.modules hW (hmodule hkind)
      exact lookup_congr (hs'.trans hs.symm)
    · intro s s' hW
      cases s.module f.module with
      | error cause => exact shared_bug trivial
      | ok inst =>
          refine shared_present.bind fun type _ => shared_popMany.bind
            fun params _ => ?_
          exact shared_pure ⟨hkind, rfl⟩
  · exact shared_bug trivial

end WebAssembly
