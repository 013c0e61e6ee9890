import WebAssembly.Host

/-!
# Stores

A store holds every instance.  Instances are never removed, so an address stays valid.
The operations here need no engine: they allocate, look up, read, write and grow.
-/

namespace WebAssembly

/-- A function in a store.  Its kind says which of the other fields are used: a function
of a module has locals and a body that run in its module instance, and a host function
has a program. -/
structure FuncInst where
  kind : FunctionKind
  type : Option FuncType
  name : String
  module : UInt32 := 0
  locals : List ValueType := []
  body : List Instr := []
  host : Option HostFunction := none
  deriving Inhabited

namespace FuncInst

/-- What can be seen of the function from outside, if it has a type. -/
def view? (f : FuncInst) : Option FunctionView :=
  f.type.map fun type => {
    kind := f.kind
    type
    name := f.name
    module := f.module
    locals := f.locals
    bodyLength := f.body.length }

/-- The function with some fields replaced. -/
def patch (f : FuncInst) (p : FunctionPatch) : FuncInst :=
  { f with
    kind := p.kind.getD f.kind
    type := p.type.getD f.type
    module := p.module.getD f.module
    locals := p.locals.getD f.locals
    body := p.body.getD f.body }

end FuncInst

namespace ModuleInst

/-- The module instance with some address lists replaced. -/
def patch (m : ModuleInst) (p : ModulePatch) : ModuleInst :=
  { m with
    functions := p.functions.getD m.functions
    tables := p.tables.getD m.tables
    memories := p.memories.getD m.memories
    globals := p.globals.getD m.globals }

end ModuleInst

/-- The limits of an engine. -/
structure EngineConfig where
  /-- The largest number of active calls; zero stands for a default. -/
  callStackCeiling : Int := 0
  /-- The largest number of instructions of one run; zero stands for no bound. -/
  stepBudget : UInt64 := 0
  /-- Whether a run ends when its context is done. -/
  closeOnContextDone : Bool := false
  /-- Whether traps are logged. -/
  logging : Bool := false
  deriving DecidableEq, Repr, Inhabited

namespace EngineConfig

def defaultCeiling : Int := 2000

/-- The largest number of active calls. -/
def ceiling (config : EngineConfig) : Int :=
  if config.callStackCeiling = 0 then defaultCeiling else config.callStackCeiling

end EngineConfig

/-- A store: its settings and its instances, each at the position of its address. -/
structure Store where
  /-- What executes functions, if anything does. -/
  engine : Option EngineConfig := none
  features : Features := Features.none
  /-- The largest number of pages of a memory of this store. -/
  memoryCap : UInt32 := 0
  /-- Whether instantiation is logged. -/
  logging : Bool := false
  functions : Array FuncInst := #[]
  tables : Array TableInst := #[]
  memories : Array MemInst := #[]
  globals : Array GlobalInst := #[]
  modules : Array ModuleInst := #[]
  deriving Inhabited

namespace Store

/-- The number of instances of each kind. -/
def counts (s : Store) : Counts where
  functions := s.functions.size
  tables := s.tables.size
  memories := s.memories.size
  globals := s.globals.size
  modules := s.modules.size

def lookup {α : Type} (space : Space) (arena : Array α) (addr : UInt32) :
    Except AccessError α :=
  match arena[addr.toNat]? with
  | some a => .ok a
  | none => .error (.address space addr)

def function (s : Store) (addr : UInt32) : Except AccessError FuncInst :=
  lookup .function s.functions addr

def table (s : Store) (addr : UInt32) : Except AccessError TableInst :=
  lookup .table s.tables addr

def memory (s : Store) (addr : UInt32) : Except AccessError MemInst :=
  lookup .memory s.memories addr

def global (s : Store) (addr : UInt32) : Except AccessError GlobalInst :=
  lookup .global s.globals addr

def module (s : Store) (addr : UInt32) : Except AccessError ModuleInst :=
  lookup .module s.modules addr

def setFunction (s : Store) (addr : UInt32) (f : FuncInst) : Store :=
  { s with functions := s.functions.setIfInBounds addr.toNat f }

def setTable (s : Store) (addr : UInt32) (t : TableInst) : Store :=
  { s with tables := s.tables.setIfInBounds addr.toNat t }

def setMemory (s : Store) (addr : UInt32) (m : MemInst) : Store :=
  { s with memories := s.memories.setIfInBounds addr.toNat m }

def modifyMemory (s : Store) (addr : UInt32) (change : MemInst → MemInst) : Store :=
  { s with memories := s.memories.modify addr.toNat change }

def setGlobal (s : Store) (addr : UInt32) (g : GlobalInst) : Store :=
  { s with globals := s.globals.setIfInBounds addr.toNat g }

def setModule (s : Store) (addr : UInt32) (m : ModuleInst) : Store :=
  { s with modules := s.modules.setIfInBounds addr.toNat m }

def nextFunction (s : Store) : UInt32 := UInt32.ofNat s.functions.size

def nextTable (s : Store) : UInt32 := UInt32.ofNat s.tables.size

def nextMemory (s : Store) : UInt32 := UInt32.ofNat s.memories.size

def nextGlobal (s : Store) : UInt32 := UInt32.ofNat s.globals.size

def nextModule (s : Store) : UInt32 := UInt32.ofNat s.modules.size

def addFunction (s : Store) (f : FuncInst) : Store :=
  { s with functions := s.functions.push f }

def addTable (s : Store) (t : TableInst) : Store :=
  { s with tables := s.tables.push t }

def addMemory (s : Store) (m : MemInst) : Store :=
  { s with memories := s.memories.push m }

def addGlobal (s : Store) (g : GlobalInst) : Store :=
  { s with globals := s.globals.push g }

def addModule (s : Store) (m : ModuleInst) : Store :=
  { s with modules := s.modules.push m }

/-- Checks that a memory of the given type may be allocated in the store. -/
def checkMemoryType (s : Store) (limits : Option Limits) : Check Limits := do
  Limits.checkMemory limits
  let limits ← Attempt.present limits
  Attempt.require (limits.min ≤ s.memoryCap) (.memoryOverCap limits.min s.memoryCap)
  pure limits

end Store
end WebAssembly
