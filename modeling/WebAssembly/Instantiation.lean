import WebAssembly.Store.Access

/-!
# Instantiation

A validated module is linked to extern values, its definitions are added to the store,
and its segments are written.  Every segment is checked before the first one is written.

Each step is a function of the store, so that what a failure leaves behind can be read
off: linking changes nothing, allocation only adds, and only the last step writes into
tables and memories.
-/

namespace WebAssembly
namespace Store

/-- Checks that an extern value has the type that an import asks for. -/
def checkExtern (s : Store) (type : ExternType) (val : ExternVal) :
    Attempt Mismatch Unit := do
  Attempt.require (val.kind = type.kind) (.kind type.kind val.kind)
  match type with
  | .func type =>
    let f ← Attempt.mapCause .address (Attempt.ofExcept (s.function val.addr))
    let actual ← Attempt.present f.type
    Attempt.require (actual = type) (.signature type actual)
  | .table type =>
    let t ← Attempt.mapCause .address (Attempt.ofExcept (s.table val.addr))
    Attempt.require (t.element = type.element) .elementType
    let limits ← Attempt.present type.limits
    Attempt.require (limits.admits t.size t.limits.max) (.tableLimits limits t.size)
  | .memory limits =>
    let m ← Attempt.mapCause .address (Attempt.ofExcept (s.memory val.addr))
    Attempt.require (limits.admits m.pages m.limits.max) (.memoryLimits limits m.pages)
  | .global type =>
    let g ← Attempt.mapCause .address (Attempt.ofExcept (s.global val.addr))
    Attempt.require (g.type.isMutable = type.isMutable) .mutability
    Attempt.require (g.type.value = type.value) .valueType

/-- Checks extern values against the imports at the same positions. -/
def link (s : Store) (imports : List ExternType) (externs : List ExternVal) :
    Attempt LinkError Unit := do
  Attempt.require (imports.length = externs.length)
    (.count imports.length externs.length)
  Attempt.forEach
    (fun index (entry : ExternType × ExternVal) =>
      Attempt.mapCause (.mismatch index) (s.checkExtern entry.1 entry.2))
    0 (imports.zip externs)

def checkMemories (s : Store) (m : Module) : Validation Unit :=
  checkEntries .memory (fun _ limits => discard (s.checkMemoryType limits)) 0 m.memories

/-- The value of a constant expression, given the globals that it may read. -/
def evalConst (s : Store) (globals : List UInt32) : ConstExpr → Option Val
  | .const type bits => some (Val.ofBits (.number type) bits)
  | .globalGet index => do
    let addr ← globals[index.toNat]?
    let g ← s.globals[addr.toNat]?
    pure g.value
  | .other _ => none

def externAddrs (externs : List ExternVal) (kind : ExternKind) : List UInt32 :=
  externs.filterMap fun val => if val.kind = kind then some val.addr else none

/-- The addresses of the next `count` instances in an arena of the given size. -/
def freshAddrs (size count : Nat) : List UInt32 :=
  (List.range count).map fun i => UInt32.ofNat (size + i)

/-- The name under which a function is first exported, or its index after a dollar
sign. -/
def functionName (exports : List Export) (index : UInt32) : String :=
  match exports.find? fun entry => entry.kind = .func && entry.index = index with
  | some entry => entry.name
  | none => s!"${index}"

def newFunction (m : Module) (name : String) (addr : UInt32) (exports : List Export)
    (imported position : Nat) (type : UInt32) : Option FuncInst := do
  let code ← (← m.code[position]?)
  let type ← m.types[type.toNat]?
  pure {
    kind := .wasm
    type
    name := name ++ "." ++ functionName exports (UInt32.ofNat (imported + position))
    module := addr
    locals := code.locals
    body := code.body }

def newFunctions (m : Module) (name : String) (addr : UInt32) (exports : List Export)
    (imported : Nat) : Option (List FuncInst) :=
  m.functions.zipIdx.mapM fun (type, position) =>
    newFunction m name addr exports imported position type

def newTables (m : Module) : Option (List TableInst) :=
  m.tables.mapM fun type => do
    let type ← type
    let limits ← type.limits
    pure (TableInst.new type.element limits)

def newMemories (s : Store) (m : Module) : Option (List MemInst) :=
  m.memories.mapM fun limits => limits.map (MemInst.new · s.memoryCap)

/-- Adds globals in order.  Each initial value may read the globals whose addresses come
before. -/
def addGlobals (s : Store) (addrs : List UInt32) :
    List (Option Global) → Option (Store × List UInt32)
  | [] => some (s, addrs)
  | entry :: rest => do
    let entry ← entry
    let value ← s.evalConst addrs (← entry.init)
    let type ← entry.type
    (s.addGlobal { type, value }).addGlobals (addrs ++ [s.nextGlobal]) rest

def exportVal (inst : ModuleInst) (entry : Export) : Option (String × ExternVal) := do
  let addr ← match entry.kind with
    | .func => inst.functions[entry.index.toNat]?
    | .table => inst.tables[entry.index.toNat]?
    | .memory => inst.memories[entry.index.toNat]?
    | .global => inst.globals[entry.index.toNat]?
    | .reserved _ => some 0
  pure (entry.name, { kind := entry.kind, addr })

/-- Adds a module instance and the module's definitions.  It fails only for modules and
extern values that validation or linking refuses. -/
def allocate (s : Store) (m : Module) (name : String) (externs : List ExternVal) :
    Option (Store × ModuleInst) := do
  let addr := s.nextModule
  let exports ← m.exports.mapM id
  let importedFunctions := externAddrs externs .func
  let functions ← newFunctions m name addr exports importedFunctions.length
  let tables ← newTables m
  let memories ← s.newMemories m
  let functionAddrs := importedFunctions ++ freshAddrs s.functions.size functions.length
  let tableAddrs := externAddrs externs .table ++ freshAddrs s.tables.size tables.length
  let memoryAddrs := externAddrs externs .memory ++ freshAddrs s.memories.size
    memories.length
  let extended := { s with
    functions := s.functions ++ functions
    tables := s.tables ++ tables
    memories := s.memories ++ memories }
  let (extended, globalAddrs) ← extended.addGlobals
      (externAddrs externs .global) m.globals
  let inst : ModuleInst := {
    name, addr, types := m.types
    functions := functionAddrs
    tables := tableAddrs
    memories := memoryAddrs
    globals := globalAddrs
    exports := [] }
  let inst := { inst with exports := ← exports.mapM (exportVal inst) }
  pure (extended.addModule inst, inst)

def segmentOffset (s : Store) (inst : ModuleInst) (offset : Option ConstExpr) :
    Option UInt32 := do
  let value ← s.evalConst inst.globals (← offset)
  pure value.u32

def elementTarget (inst : ModuleInst) (entry : ElementSegment) : Option UInt32 :=
  inst.tables[entry.table.toNat]?

def dataTarget (inst : ModuleInst) (entry : DataSegment) : Option UInt32 :=
  inst.memories[entry.memory.toNat]?

def checkElementSegment (s : Store) (inst : ModuleInst) (index : Nat)
    (entry : Option ElementSegment) : Attempt SegmentError Unit := do
  let entry ← Attempt.present entry
  let offset ← Attempt.present (s.segmentOffset inst entry.offset)
  let addr ← Attempt.present (elementTarget inst entry)
  let t ← Attempt.present s.tables[addr.toNat]?
  Attempt.require (offset.toNat + entry.init.length ≤ t.size.toNat)
    (.element index entry.init.length offset t.size)

def checkDataSegment (s : Store) (inst : ModuleInst) (index : Nat)
    (entry : Option DataSegment) : Attempt SegmentError Unit := do
  let entry ← Attempt.present entry
  let offset ← Attempt.present (s.segmentOffset inst entry.offset)
  let addr ← Attempt.present (dataTarget inst entry)
  let m ← Attempt.present s.memories[addr.toNat]?
  Attempt.require (m.hasSize offset.toUInt64 (UInt64.ofNat entry.init.length))
    (.data index entry.init.length offset m.bytes.size)

/-- Checks every segment of a module, elements before data. -/
def checkSegments (s : Store) (inst : ModuleInst) (m : Module) :
    Attempt SegmentError Unit := do
  Attempt.forEach (s.checkElementSegment inst) 0 m.elements
  Attempt.forEach (s.checkDataSegment inst) 0 m.data

/-- Fills slots with functions, given by their indexes, from a slot on. -/
def fillSlots (functions : List UInt32) (slots : Array (Option UInt32))
    (slot : UInt32) : List UInt32 → Option (Array (Option UInt32))
  | [] => some slots
  | index :: rest => do
    let addr ← functions[index.toNat]?
    if slot.toNat < slots.size then
      fillSlots functions (slots.setIfInBounds slot.toNat (some addr)) (slot + 1) rest
    else none

def applyElement (s : Store) (inst : ModuleInst) (entry : Option ElementSegment) :
    Option Store := do
  let entry ← entry
  let offset ← s.segmentOffset inst entry.offset
  let addr ← elementTarget inst entry
  let t ← s.tables[addr.toNat]?
  let slots ← fillSlots inst.functions t.slots offset entry.init
  pure (s.setTable addr { t with slots })

def applyData (s : Store) (inst : ModuleInst) (entry : Option DataSegment) :
    Option Store := do
  let entry ← entry
  let offset ← s.segmentOffset inst entry.offset
  let addr ← dataTarget inst entry
  let m ← s.memories[addr.toNat]?
  if offset.toNat ≤ m.bytes.size then
    pure (s.setMemory addr (m.splice offset.toNat entry.init))
  else none

/-- Writes every segment of a module, elements before data. -/
def applySegments (s : Store) (inst : ModuleInst) (m : Module) : Option Store := do
  let s ← m.elements.foldlM (applyElement · inst) s
  m.data.foldlM (applyData · inst) s

end Store
end WebAssembly
