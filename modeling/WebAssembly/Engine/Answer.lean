import WebAssembly.Session

/-!
# Answers that need no engine

The commands that only read or change the store.
-/

namespace WebAssembly

namespace Operation

def openContext (inherited : ContextRef) (choice : ContextChoice) :
    Operation ContextRef :=
  modifyGet (·.openContext inherited choice)

/-- The module instance that was added at a position, as it is now. -/
def added (position : Nat) (inst : ModuleInst) : Operation ModuleInst := do
  pure ((← get).store.modules[position]?.getD inst)

def findExport (module : UInt32) (name : String) (kind : ExternKind) :
    Operation ExternVal := do
  let inst ← read (·.module module)
  match inst.findExport name kind with
  | .ok val => pure val
  | .error cause => throw (.exported cause)

/-- Replaces the content of a slot without looking at the function. -/
def patchSlot (table index : UInt32) (content : Option UInt32) : Operation Unit := do
  let t ← read (·.table table)
  if t.slots.size ≤ index.toNat then throw .crash
  modify fun s =>
    s.withStore (s.store.setTable table { t with
      slots := t.slots.setIfInBounds index.toNat content })

/-- Carries out a command that needs no engine.  The others do nothing here. -/
def answer : Command → Operation Response
  | .instantiate .. | .invoke .. | .call .. => pure .done
  | .findExport module name kind => .exported <$> findExport module name kind
  | .allocFunction name type host =>
    .addr <$> modifyGet fun s =>
      let (addr, store) := s.store.allocFunction name type host
      (addr, s.withStore store)
  | .allocTable type => .addr <$> alloc .fault (·.allocTable type)
  | .allocMemory limits => .addr <$> alloc .fault (·.allocMemory limits)
  | .allocGlobal type v => .addr <$> alloc id (·.allocGlobal type v)
  | .globalGet addr => .value <$> read (·.globalGet addr)
  | .globalSet addr v => do
    write (·.globalSet addr v)
    pure .done
  | .tableSize addr => .size <$> read (·.tableSize addr)
  | .tableGet addr index => .slot <$> read (·.tableGet addr index)
  | .tableSet addr index content => do
    write (·.tableSet addr index content)
    pure .done
  | .tableGrow addr delta => .grown <$> grow (·.tableGrow addr delta)
  | .memorySize addr => .size <$> read (·.memorySize addr)
  | .memoryRead addr offset count => .bytes <$> read (·.memoryRead addr offset count)
  | .memoryWrite addr offset bytes => do
    write (·.memoryWrite addr offset bytes)
    pure .done
  | .memoryGrow addr delta => .grown <$> grow (·.memoryGrow addr delta)
  | .memoryHasSize addr offset size => do
    let m ← read (·.memory addr)
    pure (.truth (m.hasSize offset size))
  | .viewFunction addr => do
    let f ← read (·.function addr)
    .function <$> present f.view?
  | .viewTable addr => .table <$> read (·.table addr)
  | .viewMemory addr => .memory <$> read (·.memory addr)
  | .viewGlobal addr => .global <$> read (·.global addr)
  | .viewModule addr => .module <$> read (·.module addr)
  | .counts => do
    pure (.counts (← get).store.counts)
  | .patchFunction addr patch => do
    let f ← read (·.function addr)
    modify fun s => s.withStore (s.store.setFunction addr (f.patch patch))
    pure .done
  | .patchElement addr element => do
    let t ← read (·.table addr)
    modify fun s => s.withStore (s.store.setTable addr { t with element })
    pure .done
  | .patchSlot addr index content => do
    patchSlot addr index content
    pure .done
  | .patchModule addr patch => do
    let inst ← read (·.module addr)
    modify fun s => s.withStore (s.store.setModule addr (inst.patch patch))
    pure .done
  | .cancel => do
    modify Session.cancel
    pure .done

end Operation
end WebAssembly
