import WebAssembly.Store.Basic

/-!
# Access to stores

Reading, writing, growing and allocating single instances from outside.  Unlike the
engine, these operations check everything that they are given.
-/

namespace WebAssembly
namespace Store

def globalGet (s : Store) (addr : UInt32) : Except AccessError Val := do
  let g ← s.global addr
  pure g.value

/-- The store after a mutable global is given a value of its type. -/
def globalSet (s : Store) (addr : UInt32) (v : Val) : Except AccessError Store := do
  let g ← s.global addr
  if !g.type.isMutable then throw (.immutable addr)
  if v.type ≠ g.type.value then throw (.valueType v g.type.value)
  pure (s.setGlobal addr { g with value := v })

def tableSize (s : Store) (addr : UInt32) : Except AccessError UInt32 := do
  let t ← s.table addr
  pure t.size

def tableGet (s : Store) (addr index : UInt32) :
    Except AccessError (Option UInt32) := do
  let t ← s.table addr
  match t.slots[index.toNat]? with
  | some content => pure content
  | none => throw (.slot addr t.size index)

/-- The store after a slot is emptied or given the address of a function. -/
def tableSet (s : Store) (addr index : UInt32) (content : Option UInt32) :
    Except AccessError Store := do
  let t ← s.table addr
  if t.slots.size ≤ index.toNat then throw (.slot addr t.size index)
  match content with
  | some function => let _ ← s.function function
  | none => pure ()
  pure (s.setTable addr { t with slots := t.slots.setIfInBounds index.toNat content })

/-- The size of a table before it grows and the store after, or nothing when growth is
refused. -/
def tableGrow (s : Store) (addr delta : UInt32) :
    Except AccessError (Option (UInt32 × Store)) := do
  let t ← s.table addr
  pure ((t.grow? delta).map fun grown => (t.size, s.setTable addr grown))

def memorySize (s : Store) (addr : UInt32) : Except AccessError UInt32 := do
  let m ← s.memory addr
  pure m.pages

def memoryRead (s : Store) (addr offset count : UInt32) :
    Except AccessError (List UInt8) := do
  let m ← s.memory addr
  match m.read? offset count with
  | some bytes => pure bytes
  | none => throw (.read count offset addr m.bytes.size)

def memoryWrite (s : Store) (addr offset : UInt32) (bytes : List UInt8) :
    Except AccessError Store := do
  let m ← s.memory addr
  match m.write? offset bytes with
  | some written => pure (s.setMemory addr written)
  | none => throw (.write bytes.length offset addr m.bytes.size)

/-- The number of pages of a memory before it grows and the store after, or nothing when
growth is refused. -/
def memoryGrow (s : Store) (addr delta : UInt32) :
    Except AccessError (Option (UInt32 × Store)) := do
  let m ← s.memory addr
  pure ((m.grow? delta).map fun grown => (m.pages, s.setMemory addr grown))

def allocFunction (s : Store) (name : String) (type : Option FuncType)
    (host : Option HostFunction) : UInt32 × Store :=
  (s.nextFunction, s.addFunction { kind := .host, type, name, host })

/-- Adds a table of empty slots. -/
def allocTable (s : Store) (type : Option TableType) :
    Attempt Fault (UInt32 × Store) := do
  TableType.check type
  let type ← Attempt.present type
  let limits ← Attempt.present type.limits
  pure (s.nextTable, s.addTable (TableInst.new type.element limits))

/-- Adds a memory of zero bytes. -/
def allocMemory (s : Store) (limits : Option Limits) :
    Attempt Fault (UInt32 × Store) := do
  let limits ← s.checkMemoryType limits
  pure (s.nextMemory, s.addMemory (MemInst.new limits s.memoryCap))

def allocGlobal (s : Store) (type : Option GlobalType) (v : Val) :
    Attempt Error (UInt32 × Store) := do
  let type ← Attempt.present type
  Attempt.mapCause .fault type.value.check
  Attempt.require (v.type = type.value) (.access (.valueType v type.value))
  pure (s.nextGlobal, s.addGlobal { type, value := v })

end Store
end WebAssembly
