import WebAssembly.Proofs.WellFormed

/-!
# What a module adds to a store

An allocation is described by what is there afterwards.  Each definition of the module
has become an instance whose fields are those of the sections, the instance of the
module lists the addresses of its imports and then those of its own definitions, and
what was in the store before is still there.
-/

namespace WebAssembly

/-! ## Initial values -/

namespace Store

variable {s s' : Store}

/-- The value that a constant expression names: its constant, or the value of a global
that comes before the given position. -/
def Names (s : Store) (globals : List UInt32) (position : Nat)
    (value : Val) : ConstExpr → Prop
  | .const type bits => value = Val.ofBits (.number type) bits
  | .globalGet index =>
    index.toNat < position ∧ ∃ addr g, globals[index.toNat]? = some addr ∧
      s.globals[addr.toNat]? = some g ∧ value = g.value
  | .other _ => False

theorem names_of_evalConst
    {c : Context} {addrs : List UInt32} {position : Nat} {type : ValueType}
    {expr : ConstExpr} {v : Val} (h : s.evalConst addrs expr = some v)
    (hconst : c.ConstHasType position type expr) :
    s.Names addrs position v expr := by
  cases expr with
  | const number bits => exact (Option.some.inj h).symm
  | globalGet index =>
      simp only [evalConst, Option.bind_eq_bind, Option.bind_eq_some_iff,
        Option.pure_def, Option.some.injEq] at h
      obtain ⟨addr, haddr, g, hg, rfl⟩ := h
      exact ⟨hconst.1, addr, g, haddr, hg, rfl⟩
  | other => exact hconst.elim

/-- A constant expression keeps its value when globals are added. -/
theorem evalConst_mono
    {addrs addrs' : List UInt32} {expr : ConstExpr} {v : Val}
    (hglobals : Kept Eq s.globals s'.globals) (haddrs : addrs <+: addrs')
    (h : s.evalConst addrs expr = some v) : s'.evalConst addrs' expr = some v := by
  cases expr with
  | const => exact h
  | globalGet index =>
      simp only [evalConst, Option.bind_eq_bind, Option.bind_eq_some_iff,
        Option.pure_def, Option.some.injEq] at h ⊢
      obtain ⟨addr, haddr, g, hg, rfl⟩ := h
      obtain ⟨_, hg', rfl⟩ := hglobals _ _ hg
      have hindex := (List.getElem?_eq_some_iff.mp haddr).1
      obtain ⟨later, rfl⟩ := haddrs
      exact ⟨addr, (List.getElem?_append_left hindex).trans haddr, g, hg', rfl⟩
  | other => cases h

/-- Each global that is added has the declared type and the value that its initializer
has once all of them are there. -/
theorem exists_initial_of_addGlobals
    {addrs addrs' : List UInt32} {entries : List (Option Global)} {i : Nat}
    {global : Global} (h : s.addGlobals addrs entries = some (s', addrs'))
    (hentry : entries[i]? = some (some global)) :
    ∃ g init, s'.globals[s.globals.size + i]? = some g ∧ global.type = some g.type ∧
      global.init = some init ∧ s'.evalConst addrs' init = some g.value := by
  induction entries generalizing s addrs i with
  | nil => cases hentry
  | cons entry rest ih =>
      obtain ⟨global', init, value, type, rfl, hinit, hvalue, htype, hrest⟩ :=
        addGlobals_cons_eq_some_iff.mp h
      cases i with
      | zero =>
          obtain rfl : global' = global := by simpa using hentry
          obtain ⟨added, rfl, rfl⟩ := exists_of_addGlobals hrest
          have hkept : Kept Eq s.globals
              ((s.addGlobal { type, value }).globals ++ added) :=
            Kept.trans (fun _ _ _ => Eq.trans) (.push fun _ => rfl)
              (.append fun _ => rfl)
          refine ⟨{ type, value }, init, ?_, htype, hinit,
            evalConst_mono hkept ⟨_, (List.append_assoc _ _ _).symm⟩ hvalue⟩
          have hnew : (s.addGlobal { type, value }).globals[s.globals.size]? =
              some { type, value } :=
            Array.getElem?_push_size
          have hlater : Kept Eq (s.addGlobal { type, value }).globals
              ((s.addGlobal { type, value }).globals ++ added) := .append fun _ => rfl
          obtain ⟨_, hfound, rfl⟩ := hlater _ _ hnew
          exact hfound
      | succ i =>
          obtain ⟨g, init, hg, hglobal⟩ := ih hrest (by simpa using hentry)
          refine ⟨g, init, ?_, hglobal⟩
          rw [addGlobal, Array.size_push] at hg
          rwa [Nat.add_right_comm, Nat.add_assoc] at hg

end Store

/-! ## Definitions -/

namespace Module

/-- What a function of a module is called: the name of its first export or, without one,
its index after a dollar sign. -/
inductive Labels (m : Module) (index : UInt32) : String → Prop
  | exported {before after entry} (hexports : m.exports = before ++ some entry :: after)
    (hkind : entry.kind = .func) (hindex : entry.index = index)
    (hfirst : ∀ e, some e ∈ before → e.kind = .func → e.index ≠ index) :
      Labels m index entry.name
  | unexported (hnone : ∀ e, some e ∈ m.exports → e.kind = .func → e.index ≠ index) :
    Labels m index ("$" ++ toString index.toNat)

/-- The function that a module defines at a position of its sections, which has an index
in the function index space. -/
structure DefinesFunction (m : Module) (name : String) (owner index : UInt32)
    (position : Nat) (f : FuncInst) : Prop where
  kind : f.kind = .wasm
  type : ∃ entry, m.functions[position]? = some entry ∧
    m.types[entry.toNat]? = some f.type
  code : ∃ code, m.code[position]? = some (some code) ∧ f.locals = code.locals ∧
    f.body = code.body
  owner : f.module = owner
  host : f.host = none
  name : ∃ label, m.Labels index label ∧ f.name = name ++ "." ++ label

/-- The table of a declared type, all of whose slots are empty. -/
def DefinesTable (entry : Option TableType) (t : TableInst) : Prop :=
  ∃ type limits, entry = some type ∧ type.limits = some limits ∧
    t.element = type.element ∧
    t.limits = limits ∧ t.slots.size = limits.min.toNat ∧ ∀ slot ∈ t.slots, slot = none

/-- The memory of declared limits, all of whose bytes are zero. -/
def DefinesMemory (storeCap : UInt32) (entry : Option Limits)
    (memory : MemInst) : Prop :=
  ∃ limits, entry = some limits ∧ memory.limits = limits ∧
    memory.cap.toNat = Page.limit limits storeCap ∧
    memory.bytes.size = 65536 * limits.min.toNat ∧ ∀ byte ∈ memory.bytes, byte = 0

/-- The global of a declared type, with the value that its initializer names. -/
def DefinesGlobal (s : Store) (globals : List UInt32) (position : Nat)
    (entry : Option Global) (g : GlobalInst) : Prop :=
  ∃ global init, entry = some global ∧ global.type = some g.type ∧
    global.init = some init ∧
    s.Names globals position g.value init

theorem definesMemory_new (limits : Limits) (storeCap : UInt32) :
    DefinesMemory storeCap (some limits) (MemInst.new limits storeCap) :=
  ⟨limits, rfl, rfl, MemInst.cap_new limits storeCap, MemInst.size_new limits storeCap,
    fun _ hbyte => (Array.mem_replicate.mp hbyte).2⟩

theorem labels_functionName
    {m : Module} {exports : List Export} (h : m.exports = exports.map some)
    (index : UInt32) :
    m.Labels index (Store.functionName exports index) := by
  unfold Store.functionName
  split
  · rename_i entry hfound
    obtain ⟨hentry, before, after, rfl, hbefore⟩ :=
      List.find?_eq_some_iff_append.mp hfound
    obtain ⟨hkind, hindex⟩ : entry.kind = .func ∧ entry.index = index := by
      simpa using hentry
    have hexports : m.exports = before.map some ++ some entry :: after.map some := by
      simpa using h
    refine .exported hexports hkind hindex ?_
    intro e he hfunc
    simpa [hfunc] using hbefore e (by simpa using he)
  · rename_i hnone
    refine .unexported fun e he hfunc => ?_
    have he : e ∈ exports := by simpa [h] using he
    simpa [hfunc] using List.find?_eq_none.mp hnone e he

end Module

theorem eq_map_some_of_mapM_id
    {α : Type} {entries : List (Option α)} {results : List α}
    (h : entries.mapM id = some results) :
    entries = results.map some := by
  have hpaired := (mapM_eq_some_iff.mp h).imp fun _ _ => id
  rw [← List.forall₂_eq_eq_eq, List.forall₂_map_right_iff]
  exact hpaired

namespace Store

variable {s s' : Store} {m : Module} {features : Features} {name : String}
  {imports : List ExternType} {externs : List ExternVal} {inst : ModuleInst}
  {added : Additions}

/-- The export of a name has the kind and the address of an index. -/
def Exports (inst : ModuleInst) (e : Export) (entry : String × ExternVal) : Prop :=
  entry.1 = e.name ∧ entry.2.kind = e.kind ∧
    (inst.addrs e.kind)[e.index.toNat]? = some entry.2.addr

/-- The addresses of an index space: those of the extern values of the kind, in their
order, and then the next ones of an arena. -/
def spaceAddrs (externs : List ExternVal) (kind : ExternKind)
    (size count : Nat) : List UInt32 :=
  (externs.filter (·.kind = kind)).map ExternVal.addr ++ (List.range count).map fun i =>
    UInt32.ofNat (size + i)

/-- Another store has one more module instance and the definitions of a module, none of
which was written to.  All else is as before. -/
structure Adds (s : Store) (m : Module) (name : String) (externs : List ExternVal)
    (s' : Store) (added : Additions) (inst : ModuleInst) : Prop where
  store : s' = { s with
    functions := s.functions ++ added.functions
    tables := s.tables ++ added.tables
    memories := s.memories ++ added.memories
    globals := s.globals ++ added.globals
    modules := s.modules.push inst }
  functionCount : added.functions.length = m.functions.length
  functions : ∀ (i : Nat) f, added.functions[i]? = some f →
    m.DefinesFunction name (UInt32.ofNat s.modules.size)
      (UInt32.ofNat (externs.countP (·.kind = .func) + i)) i f
  tables : List.Forall₂ Module.DefinesTable m.tables added.tables
  memories : List.Forall₂ (Module.DefinesMemory s.memoryCap) m.memories added.memories
  globalCount : added.globals.length = m.globals.length
  globals : ∀ (i : Nat) g, added.globals[i]? = some g → ∃ entry,
    m.globals[i]? = some entry ∧
    Module.DefinesGlobal s' inst.globals (externs.countP (·.kind = .global) + i) entry g
  name : inst.name = name
  addr : inst.addr = UInt32.ofNat s.modules.size
  types : inst.types = m.types
  functionSpace : inst.functions = spaceAddrs externs .func s.functions.size
    m.functions.length
  tableSpace : inst.tables = spaceAddrs externs .table s.tables.size m.tables.length
  memorySpace : inst.memories = spaceAddrs externs .memory s.memories.size
    m.memories.length
  globalSpace : inst.globals = spaceAddrs externs .global s.globals.size
    m.globals.length
  exports : List.Forall₂
    (fun entry exported => ∃ e, entry = some e ∧ Exports inst e exported)
    m.exports inst.exports

theorem externAddrs_eq (externs : List ExternVal) (kind : ExternKind) :
    externAddrs externs kind = (externs.filter (·.kind = kind)).map ExternVal.addr := by
  unfold externAddrs
  induction externs with
  | nil => rfl
  | cons val rest ih =>
      by_cases hkind : val.kind = kind
      · simp [hkind, ih]
      · simp [hkind, ih]

theorem length_externAddrs_eq (externs : List ExternVal) (kind : ExternKind) :
    (externAddrs externs kind).length = externs.countP (·.kind = kind) := by
  rw [externAddrs_eq, List.length_map, List.countP_eq_length_filter]

theorem append_freshAddrs (externs : List ExternVal) (kind : ExternKind)
    (size count : Nat) :
    externAddrs externs kind ++ freshAddrs size count =
      spaceAddrs externs kind size count := by
  rw [externAddrs_eq, freshAddrs, spaceAddrs]

namespace Allocation

theorem length_globals
    (h : s.Allocation m name externs inst added) :
    added.globals.length = m.globals.length := by
  have hlength := length_of_addGlobals h.globals
  rw [h.globalAddrs, List.length_append, length_freshAddrs] at hlength
  omega

theorem definesFunction
    (h : s.Allocation m name externs inst added) {i : Nat} {f : FuncInst}
    (hf : added.functions[i]? = some f) :
    m.DefinesFunction name (UInt32.ofNat s.modules.size)
      (UInt32.ofNat (externs.countP (·.kind = .func) + i)) i f := by
  obtain ⟨exports, hexports, hfunctions⟩ := h.functions
  obtain ⟨⟨entry, position⟩, hentry, hnew⟩ :=
    exists_of_getElem?_left (mapM_eq_some_iff.mp hfunctions).flip hf
  obtain ⟨hfunction, rfl⟩ : m.functions[i]? = some entry ∧ i = position := by
    simpa [List.getElem?_zipIdx] using hentry
  obtain ⟨code, type, hcode, htype, rfl⟩ := newFunction_eq_some hnew
  have hlabels := Module.labels_functionName (eq_map_some_of_mapM_id hexports)
  exact {
    kind := rfl
    type := ⟨entry, hfunction, htype⟩
    code := ⟨code, hcode, rfl, rfl⟩
    owner := h.addr
    host := rfl
    name := ⟨_, hlabels _, by rw [length_externAddrs_eq]⟩ }

theorem definesTables
    (h : s.Allocation m name externs inst added) :
    List.Forall₂ Module.DefinesTable m.tables added.tables := by
  refine (mapM_eq_some_iff.mp h.tables).imp fun entry t hnew => ?_
  simp only [Option.bind_eq_bind, Option.bind_eq_some_iff, Option.pure_def,
    Option.some.injEq] at hnew
  obtain ⟨type, rfl, limits, hlimits, rfl⟩ := hnew
  exact ⟨type, limits, rfl, hlimits, rfl, rfl, Array.size_replicate,
    fun _ hslot => (Array.mem_replicate.mp hslot).2⟩

theorem definesMemories
    (h : s.Allocation m name externs inst added) :
    List.Forall₂ (Module.DefinesMemory s.memoryCap) m.memories added.memories := by
  refine (mapM_eq_some_iff.mp h.memories).imp fun entry memory hnew => ?_
  obtain ⟨limits, rfl, rfl⟩ := Option.map_eq_some_iff.mp hnew
  exact Module.definesMemory_new limits s.memoryCap

/-- The global at a position of the module has become one with the declared type and the
value that its initializer names. -/
theorem names_initial
    (h : s.Allocation m name externs inst added)
    (hvalid : m.Valid (.ofModule m features) imports) {i : Nat} {global : Global}
    (hglobal : m.globals[i]? = some (some global)) :
    ∃ g init, added.globals[i]? = some g ∧ global.type = some g.type ∧
      global.init = some init ∧
      (s.extend added).Names inst.globals (m.importCount .global + i) g.value init := by
  obtain ⟨_, type, init, ⟨⟩, -, -, hinit, hconst⟩ := hvalid.globals i _ hglobal
  obtain ⟨g, init', hg, htype, hinit', hvalue⟩ :=
    exists_initial_of_addGlobals h.globals hglobal
  obtain rfl := Option.some.inj (hinit.symm.trans hinit')
  refine ⟨g, init, ?_, htype, hinit, names_of_evalConst hvalue hconst⟩
  simpa [extend, getElem?_append_list] using hg

theorem definesGlobal
    (h : s.Allocation m name externs inst added)
    (hvalid : m.Valid (.ofModule m features) imports)
    (hlink : List.Forall₂ s.Provides imports externs) {i : Nat} {g : GlobalInst}
    (hg : added.globals[i]? = some g) :
    ∃ entry, m.globals[i]? = some entry ∧
      Module.DefinesGlobal (s.extend added) inst.globals
        (externs.countP (·.kind = .global) + i) entry g := by
  have hi : i < m.globals.length :=
    h.length_globals ▸ (List.getElem?_eq_some_iff.mp hg).1
  have hentry := List.getElem?_eq_getElem hi
  obtain ⟨global, _, _, hsome, -⟩ := hvalid.globals i _ hentry
  obtain ⟨g', init, hg', htype, hinit, hnames⟩ :=
    h.names_initial hvalid (hsome ▸ hentry)
  obtain rfl := Option.some.inj (hg.symm.trans hg')
  have hcount : externs.countP (·.kind = .global) = m.importCount .global := by
    rw [← length_externAddrs_eq, length_externAddrs (supplies_of_link hvalid hlink)]
  exact ⟨_, hentry, global, init, hsome, htype, hinit, hcount ▸ hnames⟩

theorem exists_exports
    (h : s.Allocation m name externs inst added)
    (hvalid : m.Valid (.ofModule m features) imports) :
    ∃ exports : List Export, m.exports = exports.map some ∧
      List.Forall₂ (Exports inst) exports inst.exports := by
  obtain ⟨exports, hexports, hexported⟩ := h.exports
  have hexports := eq_map_some_of_mapM_id hexports
  have hsizes : ∀ e ∈ exports, ∃ size,
      Module.spaceSize (.ofModule m features) e.kind = some size := by
    intro e he
    obtain ⟨_, size, ⟨⟩, hsize, -⟩ :=
      hvalid.exports (some e) (hexports ▸ List.mem_map_of_mem he)
    exact ⟨size, hsize⟩
  have hpaired := (List.forall₂_and_left exports inst.exports).mpr ⟨hsizes,
    mapM_eq_some_iff.mp hexported⟩
  refine ⟨exports, hexports, hpaired.imp ?_⟩
  rintro e entry ⟨⟨size, hsize⟩, hval⟩
  rw [exportVal_eq hsize] at hval
  obtain ⟨addr, haddr, rfl⟩ := Option.map_eq_some_iff.mp hval
  have hinst : { inst with exports := [] }.addrs e.kind = inst.addrs e.kind := by
    cases e.kind <;> rfl
  exact ⟨rfl, rfl, hinst ▸ haddr⟩

end Allocation

/-- The allocation of a module that is valid and linked adds what the module says. -/
theorem exists_adds
    (hvalid : m.validate s.features = .ok imports)
    (hlink : s.link imports externs = .ok ())
    (h : s.allocate m name externs = some (s', inst)) :
    ∃ added, s.Adds m name externs s' added inst := by
  have hvalid := Module.valid_of_validate hvalid
  have hlink := link_eq_ok_iff.mp hlink
  obtain ⟨added, hadded, rfl⟩ := exists_allocation h
  obtain ⟨exports, hexports, hpaired⟩ := hadded.exists_exports hvalid
  refine ⟨added, {
    store := rfl
    functionCount := hadded.length_functions
    functions := fun _ _ => hadded.definesFunction
    tables := hadded.definesTables
    memories := hadded.definesMemories
    globalCount := hadded.length_globals
    globals := fun _ _ => hadded.definesGlobal hvalid hlink
    name := hadded.name
    addr := hadded.addr
    types := hadded.types
    functionSpace := ?_
    tableSpace := ?_
    memorySpace := ?_
    globalSpace := ?_
    exports := ?_ }⟩
  · rw [hadded.functionAddrs, hadded.length_functions, append_freshAddrs]
  · rw [hadded.tableAddrs, hadded.length_tables, append_freshAddrs]
  · rw [hadded.memoryAddrs, hadded.length_memories, append_freshAddrs]
  · rw [hadded.globalAddrs, hadded.length_globals, append_freshAddrs]
  · rw [hexports, List.forall₂_map_left_iff]
    exact hpaired.imp fun e _ hentry => ⟨e, rfl, hentry⟩

end Store
end WebAssembly
