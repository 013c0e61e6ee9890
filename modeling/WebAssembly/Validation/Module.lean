import WebAssembly.Validation.Body

/-!
# Validation of modules

A module is checked section by section, and the first fault in that order is reported
with its section and its index.  A module that passes has import types, which linking
compares with what it is given.
-/

namespace WebAssembly

/-- A fault of a module, with the section and the index at which it lies. -/
structure Invalid where
  place : Section
  index : UInt32
  cause : Fault
  deriving DecidableEq, Repr, Inhabited

namespace Invalid

/-- The message for a fault that is already written out. -/
def messageOf (place : String) (index : UInt32) (cause : String) : String :=
  s!"invalid {place}[{index}]: {cause}"

def message (invalid : Invalid) : String :=
  messageOf invalid.place.name invalid.index invalid.cause.message

end Invalid

abbrev Validation (α : Type) := Attempt Invalid α

/-- The outcome of a check as the outcome for an entry of a section. -/
def Check.inSection {α : Type} (place : Section) (index : Nat)
    (check : Check α) : Validation α :=
  Attempt.mapCause (⟨place, UInt32.ofNat index, ·⟩) check

/-- Checks the entries of a section, the first of which has the index `index`. -/
def checkEntries {α : Type} (place : Section) (check : Nat → α → Check Unit)
    (index : Nat) : List α → Validation Unit
  | [] => .ok ()
  | a :: rest => do
    (check index a).inSection place index
    checkEntries place check (index + 1) rest

namespace Module

def checkType (features : Features) (type : Option FuncType) : Check Unit := do
  let type ← Attempt.orFail .missingFunctionType type
  ValueType.checkAll type.params
  ValueType.checkAll type.results
  Attempt.require (type.results.length ≤ 1 || features.has .multiValue) .multipleResults

def checkImport (m : Module) (entry : Option Import) : Check ExternType := do
  let entry ← Attempt.orFail .missingImport entry
  match entry.desc with
  | .func index =>
    let type ← Attempt.orFail (.typeIndex index) (Index.lookup m.types index)
    let type ← Attempt.present type
    pure (.func type)
  | .table type =>
    TableType.check type
    let type ← Attempt.present type
    pure (.table type)
  | .memory limits =>
    Limits.checkMemory limits
    let limits ← Attempt.present limits
    pure (.memory limits)
  | .global type =>
    let type ← Attempt.orFail .missingGlobalType type
    type.value.check
    pure (.global type)
  | .reserved code => Attempt.fail (.externKind code)

/-- Checks imports from the given index on and gives their types. -/
def checkImports (m : Module) (index : Nat) :
    List (Option Import) → Validation (List ExternType)
  | [] => .ok []
  | entry :: rest => do
    let type ← (m.checkImport entry).inSection .import index
    let types ← m.checkImports (index + 1) rest
    pure (type :: types)

def checkFunctionSection (m : Module) : Validation Unit := do
  Check.inSection .code m.code.length
    (Attempt.require (m.functions.length = m.code.length)
      (.sectionLengths m.functions.length m.code.length))
  checkEntries .function
    (fun _ (type : UInt32) => Attempt.require (type < Index.count m.types)
      (.typeIndex type))
    (m.importCount .func) m.functions

/-- Checks that there is at most one table, and the types of the module's own. -/
def checkTables (m : Module) : Validation Unit := do
  Check.inSection .table 1 (Attempt.require (m.tableSpace.length ≤ 1) .multipleTables)
  checkEntries .table (fun _ type => TableType.check type)
    (m.importCount .table) m.tables

/-- Checks that there is at most one memory, and the types of the module's own. -/
def checkMemories (m : Module) : Validation Unit := do
  Check.inSection .memory 1 (Attempt.require (m.memorySpace.length ≤ 1)
    .multipleMemories)
  checkEntries .memory (fun _ limits => Limits.checkMemory limits)
    (m.importCount .memory) m.memories

/-- Checks a global at an index; its initial value may read only the globals before
it. -/
def checkGlobal (c : Context) (index : Nat) (entry : Option Global) : Check Unit := do
  let entry ← Attempt.orFail .missingGlobalType entry
  let type ← Attempt.orFail .missingGlobalType entry.type
  type.value.check
  c.checkConst entry.init type.value index

/-- Checks the function at a position among the module's own, given its type index. -/
def checkFunction (m : Module) (c : Context) (position : Nat)
    (type : UInt32) : Check Unit := do
  let code ← Attempt.present m.code[position]?
  let code ← Attempt.orFail .missingCode code
  ValueType.checkAll code.locals
  let type ← Attempt.present m.types[type.toNat]?.join
  c.checkFunction type code

/-- Checks the code of the module's own functions. -/
def checkFunctions (m : Module) (c : Context) : Validation Unit :=
  let offset := m.importCount .func
  checkEntries .function (fun index type => m.checkFunction c (index - offset) type)
    offset m.functions

/-- The number of entries in the index space of a kind. -/
def spaceSize (c : Context) : ExternKind → Option Nat
  | .func => some c.functions.length
  | .table => some c.tables.length
  | .memory => some c.memories.length
  | .global => some c.globals.length
  | .reserved _ => none

/-- Checks exports from the given index on, whose names must differ from those seen
before. -/
def checkExports (c : Context) (seen : List String) (index : Nat) :
    List (Option Export) → Validation Unit
  | [] => .ok ()
  | entry :: rest => do
    let name ← Check.inSection .export index do
      let entry ← Attempt.orFail .missingExport entry
      Attempt.require (entry.name ∉ seen) (.duplicateExport entry.name)
      let size ← Attempt.orFail (.externKind entry.kind.code) (spaceSize c entry.kind)
      Attempt.require (entry.index < UInt32.ofNat size)
        (.exportIndex entry.kind entry.index)
      pure entry.name
    checkExports c (name :: seen) (index + 1) rest

/-- Checks that the start function exists, takes nothing and gives nothing. -/
def checkStart (m : Module) : Validation Unit :=
  match m.start with
  | none => .ok ()
  | some index =>
    Check.inSection .start index.toNat do
      let type ← Attempt.orFail (.functionIndex index) (m.typeOfFunction? index)
      Attempt.require (type.params = []) (.startParams type)
      Attempt.require (type.results = []) (.startResults type)

def checkElement (c : Context) (entry : Option ElementSegment) : Check Unit := do
  let entry ← Attempt.orFail .missingElement entry
  Attempt.require (c.tables ≠ []) .unknownTable
  Attempt.require (entry.table < Index.count c.tables) (.tableIndex entry.table)
  c.checkConst entry.offset .i32 c.globals.length
  Attempt.forEach
    (fun _ (index : UInt32) =>
      Attempt.require (index < Index.count c.functions) (.functionIndex index))
    0 entry.init

def checkData (c : Context) (entry : Option DataSegment) : Check Unit := do
  let entry ← Attempt.orFail .missingData entry
  Attempt.require (c.memories ≠ []) .unknownMemory
  Attempt.require (entry.memory < Index.count c.memories) (.memoryIndex entry.memory)
  c.checkConst entry.offset .i32 c.globals.length

/-- Checks a module under the given features and gives the types of its imports, in
order. -/
def validate (m : Module) (features : Features) : Validation (List ExternType) := do
  checkEntries .type (fun _ type => checkType features type) 0 m.types
  let imports ← m.checkImports 0 m.imports
  let c := Context.ofModule m features
  m.checkFunctionSection
  m.checkTables
  m.checkMemories
  checkEntries .global (checkGlobal c) (m.importCount .global) m.globals
  m.checkFunctions c
  checkExports c [] 0 m.exports
  m.checkStart
  checkEntries .element (fun _ entry => checkElement c entry) 0 m.elements
  checkEntries .data (fun _ entry => checkData c entry) 0 m.data
  pure imports

end Module
end WebAssembly
