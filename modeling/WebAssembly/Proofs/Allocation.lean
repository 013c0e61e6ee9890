import Mathlib.Data.List.Forall2
import WebAssembly.Instantiation

/-!
# What the allocation of a module adds

Allocation adds instances at the end of each arena and a module instance that holds
their addresses after the imported ones.  `Allocation` says so once, and every later
argument about instantiation starts from it.
-/

namespace WebAssembly

section Arenas

variable {α β : Type} {arena : Array α} {added : List α}

theorem size_append_list (arena : Array α) (added : List α) :
    (arena ++ added).size = arena.size + added.length := by
  rw [← Array.length_toList]
  simp

theorem mem_append_list
    {a : α} : a ∈ arena ++ added ↔ a ∈ arena ∨ a ∈ added := by
  rw [← Array.mem_toList_iff]
  simp

theorem getElem?_append_list
    {i : Nat} : (arena ++ added)[arena.size + i]? = added[i]? := by
  rw [← Array.getElem?_toList, Array.toList_appendList,
    List.getElem?_append_right (by simp)]
  simp

theorem getElem?_append_list_of_lt
    {i : Nat} (hi : i < arena.size) : (arena ++ added)[i]? = arena[i]? := by
  rw [← Array.getElem?_toList, Array.toList_appendList,
    List.getElem?_append_left (by simpa using hi), Array.getElem?_toList]

theorem mapM_eq_some_iff
    {f : α → Option β} {entries : List α} {results : List β} :
    entries.mapM f = some results ↔
      List.Forall₂ (fun a b => f a = some b) entries results := by
  induction entries generalizing results with
  | nil => simp [eq_comm]
  | cons a rest ih =>
      simp only [List.mapM_cons, Option.bind_eq_bind, Option.bind_eq_some_iff,
        Option.pure_def, Option.some.injEq, ih, List.forall₂_cons_left_iff]
      constructor
      · rintro ⟨b, hb, bs, hbs, rfl⟩
        exact ⟨b, bs, hb, hbs, rfl⟩
      · rintro ⟨b, bs, hb, hbs, rfl⟩
        exact ⟨b, hb, bs, hbs, rfl⟩

theorem exists_of_getElem?_left
    {R : α → β → Prop} {first : List α} {second : List β}
    (h : List.Forall₂ R first second) {i : Nat} {a : α} (ha : first[i]? = some a) :
    ∃ b, second[i]? = some b ∧ R a b := by
  obtain ⟨hi, rfl⟩ := List.getElem?_eq_some_iff.mp ha
  obtain ⟨hlength, hget⟩ := List.forall₂_iff_get.mp h
  exact ⟨second[i], List.getElem?_eq_getElem (hlength ▸ hi), hget i hi (hlength ▸ hi)⟩

theorem exists_of_mem_right
    {R : α → β → Prop} {first : List α} {second : List β}
    (h : List.Forall₂ R first second) {b : β} (hb : b ∈ second) :
    ∃ a ∈ first, R a b := by
  induction h with
  | nil => cases hb
  | cons hab _ ih =>
      rcases List.mem_cons.mp hb with rfl | hb
      · exact ⟨_, List.mem_cons_self, hab⟩
      · obtain ⟨a, ha, hR⟩ := ih hb
        exact ⟨a, List.mem_cons_of_mem _ ha, hR⟩

end Arenas

/-- The instances that are added to a store with a module, each kind in the order of its
addresses. -/
structure Additions where
  functions : List FuncInst
  tables : List TableInst
  memories : List MemInst
  globals : List GlobalInst

namespace Store

/-- The store with instances added to its arenas. -/
def extend (s : Store) (added : Additions) : Store :=
  { s with
    functions := s.functions ++ added.functions
    tables := s.tables ++ added.tables
    memories := s.memories ++ added.memories
    globals := s.globals ++ added.globals }

/-- The store after allocation: the additions of the module and its instance. -/
structure Allocation (s : Store) (m : Module) (name : String) (externs : List ExternVal)
    (inst : ModuleInst) (added : Additions) : Prop where
  addr : inst.addr = s.nextModule
  types : inst.types = m.types
  functionAddrs : inst.functions =
    externAddrs externs .func ++ freshAddrs s.functions.size added.functions.length
  tableAddrs : inst.tables =
    externAddrs externs .table ++ freshAddrs s.tables.size added.tables.length
  memoryAddrs : inst.memories =
    externAddrs externs .memory ++ freshAddrs s.memories.size added.memories.length
  globalAddrs : inst.globals =
    externAddrs externs .global ++ freshAddrs s.globals.size added.globals.length
  functions : ∃ exports, m.exports.mapM id = some exports ∧
    newFunctions m name inst.addr exports (externAddrs externs .func).length =
      some added.functions
  tables : newTables m = some added.tables
  memories : s.newMemories m = some added.memories
  globals : (s.extend { added with globals := [] }).addGlobals
      (externAddrs externs .global) m.globals =
    some (s.extend added, inst.globals)
  exports : ∃ exports, m.exports.mapM id = some exports ∧
    exports.mapM (exportVal { inst with exports := [] }) = some inst.exports
  name : inst.name = name

theorem freshAddrs_succ (size count : Nat) :
    freshAddrs size (count + 1) = UInt32.ofNat size :: freshAddrs (size + 1) count := by
  simp only [freshAddrs, List.range_succ_eq_map, List.map_cons, List.map_map,
    Nat.add_zero, List.cons.injEq, true_and]
  refine List.map_congr_left fun i _ => ?_
  rw [Function.comp, Nat.succ_eq_add_one, Nat.add_right_comm, Nat.add_assoc]

theorem getElem?_freshAddrs
    {size count i : Nat} (hi : i < count) :
    (freshAddrs size count)[i]? = some (UInt32.ofNat (size + i)) := by
  simp [freshAddrs, hi]

@[simp] theorem length_freshAddrs (size count : Nat) :
    (freshAddrs size count).length = count := by
  simp [freshAddrs]

theorem addGlobals_cons_eq_some_iff
    {s s' : Store} {addrs addrs' : List UInt32} {entry : Option Global}
    {rest : List (Option Global)} :
    s.addGlobals addrs (entry :: rest) = some (s', addrs') ↔
      ∃ global init value type, entry = some global ∧ global.init = some init ∧
        s.evalConst addrs init = some value ∧ global.type = some type ∧
        (s.addGlobal { type, value }).addGlobals (addrs ++ [s.nextGlobal]) rest =
          some (s', addrs') := by
  simp only [addGlobals, Option.bind_eq_bind, Option.bind_eq_some_iff]
  constructor
  · rintro ⟨global, rfl, init, hinit, value, hvalue, type, htype, hrest⟩
    exact ⟨global, init, value, type, rfl, hinit, hvalue, htype, hrest⟩
  · rintro ⟨global, init, value, type, rfl, hinit, hvalue, htype, hrest⟩
    exact ⟨global, rfl, init, hinit, value, hvalue, type, htype, hrest⟩

theorem exists_of_addGlobals
    {s s' : Store} {addrs addrs' : List UInt32} {entries : List (Option Global)}
    (h : s.addGlobals addrs entries = some (s', addrs')) :
    ∃ added : List GlobalInst, s' = { s with globals := s.globals ++ added } ∧
      addrs' = addrs ++ freshAddrs s.globals.size added.length := by
  induction entries generalizing s addrs with
  | nil =>
      obtain ⟨rfl, rfl⟩ : s = s' ∧ addrs = addrs' := by simpa [addGlobals] using h
      exact ⟨[], by simp, by simp [freshAddrs]⟩
  | cons entry rest ih =>
      obtain ⟨global, init, value, type, -, -, -, -, hrest⟩ :=
        addGlobals_cons_eq_some_iff.mp h
      obtain ⟨added, rfl, rfl⟩ := ih hrest
      refine ⟨{ type, value } :: added, ?_, ?_⟩
      · simp [addGlobal]
      · simp [addGlobal, nextGlobal, freshAddrs_succ]

theorem length_of_addGlobals
    {s s' : Store} {addrs addrs' : List UInt32} {entries : List (Option Global)}
    (h : s.addGlobals addrs entries = some (s', addrs')) :
    addrs'.length = addrs.length + entries.length := by
  induction entries generalizing s addrs with
  | nil =>
      obtain ⟨-, rfl⟩ : s = s' ∧ addrs = addrs' := by simpa [addGlobals] using h
      rfl
  | cons entry rest ih =>
      obtain ⟨global, init, value, type, -, -, -, -, hrest⟩ :=
        addGlobals_cons_eq_some_iff.mp h
      rw [ih hrest, List.length_append, List.length_cons, List.length_cons,
        List.length_nil]
      omega

/-- An allocation that succeeds is described by what it has added. -/
theorem exists_allocation
    {s s' : Store} {m : Module} {name : String} {externs : List ExternVal}
    {inst : ModuleInst} (h : s.allocate m name externs = some (s', inst)) :
    ∃ added, s.Allocation m name externs inst added ∧
      s' = (s.extend added).addModule inst := by
  simp only [allocate, Option.bind_eq_bind, Option.bind_eq_some_iff, Option.pure_def,
    Option.some.injEq, Prod.mk.injEq, Prod.exists] at h
  obtain ⟨exports, hexports, functions, hfunctions, tables, htables, memories,
      hmemories, extended, globalAddrs, hglobals, exported, hexported, rfl, rfl⟩ := h
  obtain ⟨globals, rfl, rfl⟩ := exists_of_addGlobals hglobals
  refine ⟨{ functions, tables, memories, globals }, ?_, rfl⟩
  exact {
    name := rfl
    addr := rfl
    types := rfl
    functionAddrs := rfl
    tableAddrs := rfl
    memoryAddrs := rfl
    globalAddrs := rfl
    functions := ⟨exports, hexports, hfunctions⟩
    tables := htables
    memories := hmemories
    globals := by simpa [extend] using hglobals
    exports := ⟨exports, hexports, hexported⟩ }

theorem module_of_allocate
    {s s' : Store} {m : Module} {name : String} {externs : List ExternVal}
    {inst : ModuleInst} (h : s.allocate m name externs = some (s', inst)) :
    s'.modules[s.modules.size]? = some inst := by
  obtain ⟨added, -, rfl⟩ := exists_allocation h
  exact Array.getElem?_push_size

theorem newFunction_eq_some
    {m : Module} {name : String} {addr : UInt32} {exports : List Export}
    {imported position : Nat} {type : UInt32} {f : FuncInst}
    (h : newFunction m name addr exports imported position type = some f) :
    ∃ code functionType, m.code[position]? = some (some code) ∧
      m.types[type.toNat]? = some functionType ∧
      f = {
        kind := .wasm, type := functionType
        name := name ++ "." ++ functionName exports (UInt32.ofNat (imported + position))
        module := addr, locals := code.locals, body := code.body } := by
  simp only [newFunction, Option.bind_eq_bind, Option.bind_eq_some_iff, Option.pure_def,
    Option.some.injEq] at h
  obtain ⟨_, hcode, code, rfl, functionType, htype, rfl⟩ := h
  exact ⟨code, functionType, hcode, htype, rfl⟩

namespace Allocation

variable {s : Store} {m : Module} {name : String} {externs : List ExternVal}
  {inst : ModuleInst} {added : Additions}

theorem length_functions
    (h : s.Allocation m name externs inst added) :
    added.functions.length = m.functions.length := by
  obtain ⟨exports, -, hfunctions⟩ := h.functions
  rw [← (mapM_eq_some_iff.mp hfunctions).length_eq, List.length_zipIdx]

theorem length_tables
    (h : s.Allocation m name externs inst added) :
    added.tables.length = m.tables.length :=
  (mapM_eq_some_iff.mp h.tables).length_eq.symm

theorem length_memories
    (h : s.Allocation m name externs inst added) :
    added.memories.length = m.memories.length :=
  (mapM_eq_some_iff.mp h.memories).length_eq.symm

/-- Every new function is made from the type index and the code at one position of the
module. -/
theorem exists_code
    (h : s.Allocation m name externs inst added) : ∀ f ∈ added.functions,
      ∃ (position : Nat) (index : UInt32) (code : Code) (type : Option FuncType)
        (functionName : String),
      m.functions[position]? = some index ∧ m.code[position]? = some (some code) ∧
      m.types[index.toNat]? = some type ∧
      f = {
        kind := .wasm, type, name := functionName, module := inst.addr
        locals := code.locals, body := code.body } := by
  intro f hf
  obtain ⟨exports, -, hfunctions⟩ := h.functions
  obtain ⟨⟨index, position⟩, hmem, hnew⟩ :=
    exists_of_mem_right (mapM_eq_some_iff.mp hfunctions) hf
  obtain ⟨code, type, hcode, htype, rfl⟩ := newFunction_eq_some hnew
  exact ⟨position, index, code, type, _, List.mem_zipIdx_iff_getElem?.mp hmem,
    hcode, htype, rfl⟩

end Allocation
end Store
end WebAssembly
