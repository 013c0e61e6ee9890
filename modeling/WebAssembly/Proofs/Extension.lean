import Mathlib.Logic.Relation
import WebAssembly.Proofs.Allocation
import WebAssembly.Proofs.Attempt
import WebAssembly.Proofs.Law

/-!
# Changes and extension of stores

`Store.Change` lists everything that can happen to a store; `Store.Evolves` is any
number of such changes.  An invariant of stores is proved once for each change.  The
first one stands here: a changed store extends the old one, so addresses stay valid and
denote the same things.

Assignments to globals come in two strengths.  Those that are guarded reach mutable
globals only; the engine itself makes no such promise, and that it holds for validated
code needs the typing of stores.
-/

namespace WebAssembly

/-- Every entry of an arena is still there in another one, related to the old entry. -/
def Kept {α : Type} (R : α → α → Prop) (arena arena' : Array α) : Prop :=
  ∀ (i : Nat) (a : α), arena[i]? = some a → ∃ a', arena'[i]? = some a' ∧ R a a'

namespace Kept

variable {α : Type} {R : α → α → Prop} {arena arena' arena'' : Array α}

theorem refl
    (hR : ∀ a, R a a) : Kept R arena arena :=
  fun _ a ha => ⟨a, ha, hR a⟩

theorem trans
    (hR : ∀ a b c, R a b → R b c → R a c) (h : Kept R arena arena')
    (h' : Kept R arena' arena'') :
    Kept R arena arena'' := by
  intro i a ha
  obtain ⟨b, hb, hab⟩ := h i a ha
  obtain ⟨d, hd, hbd⟩ := h' i b hb
  exact ⟨d, hd, hR a b d hab hbd⟩

theorem set
    {position : Nat} {old new : α} (hR : ∀ a, R a a)
    (hold : arena[position]? = some old) (hnew : R old new) :
    Kept R arena (arena.setIfInBounds position new) := by
  intro i a ha
  rw [Array.getElem?_setIfInBounds]
  by_cases hi : position = i
  · subst hi
    obtain rfl : old = a := Option.some.inj (hold.symm.trans ha)
    have hlt : position < arena.size := (Array.getElem?_eq_some_iff.mp ha).1
    exact ⟨new, by simp [hlt], hnew⟩
  · exact ⟨a, by simp [hi, ha], hR a⟩

theorem push
    {new : α} (hR : ∀ a, R a a) : Kept R arena (arena.push new) := by
  intro i a ha
  have hlt : i < arena.size := (Array.getElem?_eq_some_iff.mp ha).1
  exact ⟨a, by rwa [Array.getElem?_push_lt hlt, ← Array.getElem?_eq_getElem hlt], hR a⟩

theorem append
    {new : List α} (hR : ∀ a, R a a) : Kept R arena (arena ++ new) := by
  intro i a ha
  have hlt : i < arena.size := (Array.getElem?_eq_some_iff.mp ha).1
  refine ⟨a, ?_, hR a⟩
  rw [← Array.getElem?_toList] at ha ⊢
  simpa [List.getElem?_append, hlt] using ha

theorem size_le
    (h : Kept R arena arena') : arena.size ≤ arena'.size := by
  rcases Nat.lt_or_ge arena'.size arena.size with hlt | hle
  · obtain ⟨a', ha', -⟩ := h arena'.size _ (Array.getElem?_eq_getElem hlt)
    exact absurd (Array.getElem?_eq_some_iff.mp ha').1 (Nat.lt_irrefl _)
  · exact hle

end Kept

/-- A global keeps its type and, if assignments are guarded and it is immutable, its
value. -/
def GlobalInst.Becomes (guarded : Prop) (g g' : GlobalInst) : Prop :=
  g'.type = g.type ∧ (guarded → g.type.isMutable = false → g'.value = g.value)

/-- A table keeps its element type and its declared limits, and does not shrink. -/
def TableInst.Becomes (t t' : TableInst) : Prop :=
  t'.element = t.element ∧ t'.limits = t.limits ∧ t.slots.size ≤ t'.slots.size

/-- A memory keeps its declared limits and its cap, and does not shrink. -/
def MemInst.Becomes (m m' : MemInst) : Prop :=
  m'.limits = m.limits ∧ m'.cap = m.cap ∧ m.bytes.size ≤ m'.bytes.size

theorem GlobalInst.Becomes.refl {guarded : Prop} (g : GlobalInst) :
    g.Becomes guarded g :=
  ⟨rfl, fun _ _ => rfl⟩

theorem GlobalInst.Becomes.trans
    {guarded : Prop} (a b c : GlobalInst) (h : a.Becomes guarded b)
    (h' : b.Becomes guarded c) :
    a.Becomes guarded c := by
  refine ⟨h'.1.trans h.1, fun hguarded himmutable => ?_⟩
  have hb : b.type.isMutable = false := by rw [h.1, himmutable]
  exact (h'.2 hguarded hb).trans (h.2 hguarded himmutable)

theorem TableInst.Becomes.refl (t : TableInst) : t.Becomes t :=
  ⟨rfl, rfl, Nat.le_refl _⟩

theorem TableInst.Becomes.trans
    (a b c : TableInst) (h : a.Becomes b) (h' : b.Becomes c) : a.Becomes c :=
  ⟨h'.1.trans h.1, h'.2.1.trans h.2.1, Nat.le_trans h.2.2 h'.2.2⟩

theorem MemInst.Becomes.refl (m : MemInst) : m.Becomes m :=
  ⟨rfl, rfl, Nat.le_refl _⟩

theorem MemInst.Becomes.trans
    (a b c : MemInst) (h : a.Becomes b) (h' : b.Becomes c) : a.Becomes c :=
  ⟨h'.1.trans h.1, h'.2.1.trans h.2.1, Nat.le_trans h.2.2 h'.2.2⟩

namespace Store

/-- Every address of a store is valid in another one and denotes the same function or
module instance, or a global, a table or a memory that has only changed as these may. -/
structure Extends (guarded : Prop) (s s' : Store) : Prop where
  functions : Kept Eq s.functions s'.functions
  modules : Kept Eq s.modules s'.modules
  globals : Kept (GlobalInst.Becomes guarded) s.globals s'.globals
  tables : Kept TableInst.Becomes s.tables s'.tables
  memories : Kept MemInst.Becomes s.memories s'.memories
  engine : s'.engine = s.engine

/-- The functions, globals and modules are few enough for their addresses to be words of
32 bits. -/
structure Addressable (s : Store) : Prop where
  functions : s.functions.size ≤ UInt32.size
  globals : s.globals.size ≤ UInt32.size
  modules : s.modules.size ≤ UInt32.size

theorem lookup_eq_ok_iff
    {α : Type} {space : Space} {arena : Array α} {addr : UInt32} {a : α} :
    lookup space arena addr = .ok a ↔ arena[addr.toNat]? = some a := by
  unfold lookup
  split <;> simp_all

/-- One change of a store, with what is known when it happens. -/
inductive Change (law : ValueLaw) (guarded total : Prop) : Store → Store → Prop
  | assign {s addr g v} (hglobal : s.global addr = .ok g)
    (hguarded : guarded → g.type.isMutable = true) (htype : v.type = g.type.value)
      (hv : law.Holds v) :
    Change law guarded total s (s.setGlobal addr { g with value := v })
  | splice {s addr memory offset bytes} (hmemory : s.memory addr = .ok memory) :
    Change law guarded total s (s.setMemory addr (memory.splice offset bytes))
  | growMemory {s addr memory delta grown} (hmemory : s.memory addr = .ok memory)
    (hgrow : memory.grow? delta = some grown) :
      Change law guarded total s (s.setMemory addr grown)
  | refill {s addr table slots} (htable : s.table addr = .ok table)
    (hsize : slots.size = table.slots.size)
    (hslots : ∀ (i : Nat) function, slots[i]? = some (some function) →
      table.slots[i]? = some (some function) ∨ function.toNat < s.functions.size) :
    Change law guarded total s (s.setTable addr { table with slots })
  | growTable {s addr table delta grown} (htable : s.table addr = .ok table)
    (hgrow : table.grow? delta = some grown) :
      Change law guarded total s (s.setTable addr grown)
  | addFunction {s name type host}
    (hhost : FuncInst.HostLawful law total { kind := .host, type, name, host }) :
    Change law guarded total s (s.addFunction { kind := .host, type, name, host })
  | addTable {s type addr s'} (halloc : s.allocTable type = .ok (addr, s')) :
    Change law guarded total s s'
  | addMemory {s limits addr s'} (halloc : s.allocMemory limits = .ok (addr, s')) :
    Change law guarded total s s'
  | addGlobal {s type v addr s'} (halloc : s.allocGlobal type v = .ok (addr, s'))
    (hv : law.Holds v) :
    Change law guarded total s s'
  | link {s m name externs imports inst s'} (hvalid : m.validate s.features =
    .ok imports)
    (hlink : s.link imports externs = .ok ()) (hmemories : s.checkMemories m = .ok ())
    (halloc : s.allocate m name externs = some (s', inst)) :
      Change law guarded total s s'

/-- Any number of changes. -/
def Evolves (law : ValueLaw) (guarded total : Prop) : Store → Store → Prop :=
  Relation.ReflTransGen (Change law guarded total)

namespace Extends

variable {guarded : Prop} {s s' s'' : Store}

theorem refl (s : Store) : s.Extends guarded s where
  functions := .refl fun _ => rfl
  modules := .refl fun _ => rfl
  globals := .refl .refl
  tables := .refl .refl
  memories := .refl .refl
  engine := rfl

theorem trans
    (h : s.Extends guarded s') (h' : s'.Extends guarded s'') :
    s.Extends guarded s'' where
  functions := h.functions.trans (fun _ _ _ => Eq.trans) h'.functions
  modules := h.modules.trans (fun _ _ _ => Eq.trans) h'.modules
  globals := h.globals.trans .trans h'.globals
  tables := h.tables.trans .trans h'.tables
  memories := h.memories.trans .trans h'.memories
  engine := h'.engine.trans h.engine

theorem addressable
    (h : s.Extends guarded s') (hs' : s'.Addressable) : s.Addressable where
  functions := Nat.le_trans h.functions.size_le hs'.functions
  globals := Nat.le_trans h.globals.size_le hs'.globals
  modules := Nat.le_trans h.modules.size_le hs'.modules

theorem setGlobal
    {addr : UInt32} {g : GlobalInst} {v : Val} (hglobal : s.global addr = .ok g)
    (hguarded : guarded → g.type.isMutable = true) :
    s.Extends guarded (s.setGlobal addr { g with value := v }) := by
  have hrefl : s.Extends guarded s := refl s
  refine { hrefl with globals := .set .refl (lookup_eq_ok_iff.mp hglobal) ⟨rfl,
    fun h himmutable => ?_⟩ }
  simp [hguarded h] at himmutable

theorem setTable
    {addr : UInt32} {t t' : TableInst} (htable : s.table addr = .ok t)
    (ht' : t.Becomes t') :
    s.Extends guarded (s.setTable addr t') :=
  { refl s with tables := .set .refl (lookup_eq_ok_iff.mp htable) ht' }

theorem setMemory
    {addr : UInt32} {m m' : MemInst} (hmemory : s.memory addr = .ok m)
    (hm' : m.Becomes m') :
    s.Extends guarded (s.setMemory addr m') :=
  { refl s with memories := .set .refl (lookup_eq_ok_iff.mp hmemory) hm' }

theorem addGlobal (g : GlobalInst) : s.Extends guarded (s.addGlobal g) := by
  have hrefl : s.Extends guarded s := refl s
  exact { hrefl with globals := .push .refl }

theorem allocate
    {m : Module} {name : String} {externs : List ExternVal} {inst : ModuleInst}
    (h : s.allocate m name externs = some (s', inst)) : s.Extends guarded s' := by
  obtain ⟨added, -, rfl⟩ := exists_allocation h
  exact {
    functions := .append fun _ => rfl
    modules := .push fun _ => rfl
    globals := .append .refl
    tables := .append .refl
    memories := .append .refl
    engine := rfl }

end Extends

theorem allocTable_eq_ok
    {s s' : Store} {type : Option TableType} {addr : UInt32}
    (h : s.allocTable type = .ok (addr, s')) :
    ∃ t limits, type = some t ∧ t.limits = some limits ∧ TableType.check type = .ok () ∧
      s' = s.addTable (TableInst.new t.element limits) := by
  simp only [allocTable, Attempt.bind_eq_ok, Attempt.present_eq_ok, Attempt.pure_eq_ok,
    Prod.mk.injEq] at h
  obtain ⟨_, hcheck, t, rfl, limits, hlimits, -, rfl⟩ := h
  exact ⟨t, limits, rfl, hlimits, hcheck, rfl⟩

theorem checkMemoryType_eq_ok
    {s : Store} {type : Option Limits} {limits : Limits}
    (h : s.checkMemoryType type = .ok limits) :
    type = some limits ∧ Limits.checkMemory type = .ok () ∧
      limits.min ≤ s.memoryCap := by
  simp only [checkMemoryType, Attempt.bind_eq_ok, Attempt.present_eq_ok,
    Attempt.require_eq_ok, Attempt.pure_eq_ok, decide_eq_true_eq] at h
  obtain ⟨_, hcheck, _, rfl, _, hcap, rfl⟩ := h
  exact ⟨rfl, hcheck, hcap⟩

theorem allocMemory_eq_ok
    {s s' : Store} {type : Option Limits} {addr : UInt32}
    (h : s.allocMemory type = .ok (addr, s')) :
    ∃ limits, s.checkMemoryType type = .ok limits ∧
      s' = s.addMemory (MemInst.new limits s.memoryCap) := by
  simp only [allocMemory, Attempt.bind_eq_ok, Attempt.pure_eq_ok, Prod.mk.injEq] at h
  obtain ⟨limits, hcheck, -, rfl⟩ := h
  exact ⟨limits, hcheck, rfl⟩

theorem allocGlobal_eq_ok
    {s s' : Store} {type : Option GlobalType} {v : Val} {addr : UInt32}
    (h : s.allocGlobal type v = .ok (addr, s')) :
    ∃ t, type = some t ∧ v.type = t.value ∧
      s' = s.addGlobal { type := t, value := v } := by
  simp only [allocGlobal, Attempt.bind_eq_ok, Attempt.present_eq_ok,
    Attempt.require_eq_ok, Attempt.pure_eq_ok, decide_eq_true_eq, Prod.mk.injEq] at h
  obtain ⟨t, rfl, _, -, _, htype, -, rfl⟩ := h
  exact ⟨t, rfl, htype, rfl⟩

end Store

theorem size_overwrite (bytes : Array UInt8) (position : Nat) (written : List UInt8) :
    (overwrite bytes position written).size = bytes.size := by
  induction written generalizing bytes position with
  | nil => rfl
  | cons byte rest ih => simp [overwrite, ih]

theorem MemInst.becomes_splice (m : MemInst) (offset : Nat) (bytes : List UInt8) :
    m.Becomes (m.splice offset bytes) :=
  ⟨rfl, rfl, Nat.le_of_eq (size_overwrite _ _ _).symm⟩

theorem MemInst.becomes_of_grow?
    {m grown : MemInst} {delta : UInt32} (h : m.grow? delta = some grown) :
    m.Becomes grown := by
  unfold MemInst.grow? at h
  split at h
  · obtain rfl := Option.some.inj h
    exact ⟨rfl, rfl, by simp⟩
  · cases h

theorem TableInst.becomes_of_grow?
    {t grown : TableInst} {delta : UInt32} (h : t.grow? delta = some grown) :
    t.Becomes grown := by
  simp only [TableInst.grow?] at h
  split at h
  · obtain rfl := Option.some.inj h
    exact ⟨rfl, rfl, by simp⟩
  · cases h

namespace Store

variable {law : ValueLaw} {guarded total : Prop} {s s' s'' : Store}

/-- A changed store extends the old one. -/
theorem Change.extension
    (h : Change law guarded total s s') : s.Extends guarded s' := by
  have hrefl : s.Extends guarded s := .refl s
  cases h with
  | assign hglobal hguarded => exact .setGlobal hglobal hguarded
  | splice hmemory => exact .setMemory hmemory (MemInst.becomes_splice _ _ _)
  | growMemory hmemory hgrow =>
      exact .setMemory hmemory (MemInst.becomes_of_grow? hgrow)
  | refill htable hsize => exact .setTable htable ⟨rfl, rfl, Nat.le_of_eq hsize.symm⟩
  | growTable htable hgrow => exact .setTable htable (TableInst.becomes_of_grow? hgrow)
  | addFunction => exact { hrefl with functions := .push fun _ => rfl }
  | addTable halloc =>
      obtain ⟨t, limits, -, -, -, rfl⟩ := allocTable_eq_ok halloc
      exact { hrefl with tables := .push .refl }
  | addMemory halloc =>
      obtain ⟨limits, -, rfl⟩ := allocMemory_eq_ok halloc
      exact { hrefl with memories := .push .refl }
  | addGlobal halloc =>
      obtain ⟨t, -, -, rfl⟩ := allocGlobal_eq_ok halloc
      exact .addGlobal _
  | link _ _ _ halloc => exact .allocate halloc

namespace Evolves

theorem refl (s : Store) : Evolves law guarded total s s :=
  Relation.ReflTransGen.refl

theorem tail
    (h : Evolves law guarded total s s') (h' : Change law guarded total s' s'') :
    Evolves law guarded total s s'' :=
  Relation.ReflTransGen.tail h h'

theorem trans
    (h : Evolves law guarded total s s') (h' : Evolves law guarded total s' s'') :
    Evolves law guarded total s s'' :=
  Relation.ReflTransGen.trans h h'

theorem extension
    (h : Evolves law guarded total s s') : s.Extends guarded s' := by
  induction h with
  | refl => exact .refl s
  | tail _ hchange ih => exact ih.trans hchange.extension

/-- A property that each change keeps within a bound is kept by any number of changes,
if every store that is extended within the bound lies within it. -/
theorem induct
    {P Q : Store → Prop} (hQ : ∀ s s', s.Extends guarded s' → Q s' → Q s)
    (hP : ∀ s s', Q s' → Change law guarded total s s' → P s → P s')
    (h : Evolves law guarded total s s') (hs' : Q s') (hs : P s) : P s' := by
  induction h with
  | refl => exact hs
  | tail _ hchange ih => exact hP _ _ hs' hchange (ih (hQ _ _ hchange.extension hs'))

end Evolves
/-- Host functions are lawful and globals have lawful values. -/
structure Lawful (law : ValueLaw) (s : Store) : Prop where
  hosts : ∀ f ∈ s.functions, ∀ host, f.host = some host → ∀ params,
    law.HoldsAll params →
    (host params).Lawful law False
  globals : ∀ g ∈ s.globals, law.Holds g.value

theorem Lawful.evalConst
    {addrs : List UInt32} {expr : ConstExpr} {v : Val} (hs : s.Lawful law)
    (h : s.evalConst addrs expr = some v) : law.Holds v := by
  cases expr with
  | const type bits =>
      obtain rfl := Option.some.inj h
      exact law.ofBits _ _
  | globalGet index =>
      simp only [Store.evalConst, Option.bind_eq_bind, Option.bind_eq_some_iff,
        Option.pure_def, Option.some.injEq] at h
      obtain ⟨addr, -, g, hg, rfl⟩ := h
      exact hs.globals g (Array.mem_of_getElem? hg)
  | other => cases h

theorem Lawful.addGlobal
    {g : GlobalInst} (hs : s.Lawful law) (hg : law.Holds g.value) :
    (s.addGlobal g).Lawful law where
  hosts := hs.hosts
  globals := by
    intro g' hg'
    rcases Array.mem_push.mp hg' with hold | rfl
    · exact hs.globals g' hold
    · exact hg

theorem Lawful.addGlobals
    {addrs addrs' : List UInt32} {entries : List (Option Global)} (hs : s.Lawful law)
    (h : s.addGlobals addrs entries = some (s', addrs')) : s'.Lawful law := by
  induction entries generalizing s addrs with
  | nil =>
      obtain ⟨rfl, -⟩ : s = s' ∧ addrs = addrs' := by simpa [Store.addGlobals] using h
      exact hs
  | cons entry rest ih =>
      obtain ⟨global, init, value, type, -, -, hvalue, -, hrest⟩ :=
        addGlobals_cons_eq_some_iff.mp h
      exact ih (hs.addGlobal (hs.evalConst hvalue)) hrest

theorem Lawful.allocate
    {m : Module} {name : String} {externs : List ExternVal} {inst : ModuleInst}
    (hs : s.Lawful law) (h : s.allocate m name externs = some (s', inst)) :
    s'.Lawful law := by
  obtain ⟨added, hadded, rfl⟩ := exists_allocation h
  have hfunctions : (s.extend { added with globals := [] }).Lawful law := by
    refine ⟨fun f hf host hhost => ?_, by simpa [Store.extend] using hs.globals⟩
    rcases mem_append_list.mp hf with hold | hnew
    · exact hs.hosts f hold host hhost
    · obtain ⟨_, _, _, _, _, -, -, -, rfl⟩ := hadded.exists_code f hnew
      cases hhost
  have hextend := hfunctions.addGlobals hadded.globals
  exact ⟨hextend.hosts, hextend.globals⟩

/-- Every change keeps a store lawful. -/
theorem Change.lawful
    (h : Change law guarded total s s') (hs : s.Lawful law) : s'.Lawful law := by
  cases h with
  | assign hglobal hguarded htype hv =>
      refine ⟨hs.hosts, fun g' hg' => ?_⟩
      rcases Array.mem_or_eq_of_mem_setIfInBounds hg' with hold | rfl
      · exact hs.globals g' hold
      · exact hv
  | splice | growMemory | refill | growTable => exact ⟨hs.hosts, hs.globals⟩
  | addFunction hhost =>
      refine ⟨fun f hf host hsome => ?_, hs.globals⟩
      rcases Array.mem_push.mp hf with hold | rfl
      · exact hs.hosts f hold host hsome
      · exact hhost.any host hsome
  | addTable halloc =>
      obtain ⟨t, limits, -, -, -, rfl⟩ := allocTable_eq_ok halloc
      exact ⟨hs.hosts, hs.globals⟩
  | addMemory halloc =>
      obtain ⟨limits, -, rfl⟩ := allocMemory_eq_ok halloc
      exact ⟨hs.hosts, hs.globals⟩
  | addGlobal halloc hv =>
      obtain ⟨t, -, -, rfl⟩ := allocGlobal_eq_ok halloc
      exact hs.addGlobal hv
  | link _ _ _ halloc => exact hs.allocate halloc

theorem Evolves.lawful
    (h : Evolves law guarded total s s') (hs : s.Lawful law) : s'.Lawful law := by
  induction h with
  | refl => exact hs
  | tail _ hchange ih => exact hchange.lawful ih

end Store
end WebAssembly
