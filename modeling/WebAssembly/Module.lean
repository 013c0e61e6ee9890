import WebAssembly.Index
import WebAssembly.Instruction

/-!
# Modules

A module lists its types, imports, definitions, exports and segments.  Nothing is
promised about it: entries may be missing and indexes may point nowhere, which
validation finds out.

The functions, tables, memories and globals of a module form four index spaces, in which
imports come before the module's own definitions.
-/

namespace WebAssembly

/-- What an import asks for: a function by the index of its type, or something with a
type of its own. -/
inductive ImportDesc
  | func (type : UInt32)
  | table (type : Option TableType)
  | memory (limits : Option Limits)
  | global (type : Option GlobalType)
  | reserved (code : UInt8)
  deriving DecidableEq, Repr, Inhabited

namespace ImportDesc

def kind : ImportDesc → ExternKind
  | .func _ => .func
  | .table _ => .table
  | .memory _ => .memory
  | .global _ => .global
  | .reserved code => .reserved code

end ImportDesc

/-- An import, under the two names by which a host would look for it. -/
structure Import where
  module : String
  name : String
  desc : ImportDesc
  deriving DecidableEq, Repr, Inhabited

/-- A global with its initial value. -/
structure Global where
  type : Option GlobalType
  init : Option ConstExpr
  deriving DecidableEq, Repr, Inhabited

/-- An export: a name for an index in the index space of the kind. -/
structure Export where
  kind : ExternKind
  name : String
  index : UInt32
  deriving DecidableEq, Repr, Inhabited

/-- Functions that are written into a table, from the offset on. -/
structure ElementSegment where
  table : UInt32
  offset : Option ConstExpr
  init : List UInt32
  deriving DecidableEq, Repr, Inhabited

/-- The locals and the body of a function. -/
structure Code where
  locals : List ValueType
  body : List Instr
  deriving Repr, Inhabited

/-- Bytes that are written into a memory, from the offset on. -/
structure DataSegment where
  memory : UInt32
  offset : Option ConstExpr
  init : List UInt8
  deriving DecidableEq, Repr, Inhabited

/-- A module.  The function at position `i` of `functions` has the type of that index
and the code at position `i` of `code`. -/
structure Module where
  types : List (Option FuncType) := []
  imports : List (Option Import) := []
  functions : List UInt32 := []
  tables : List (Option TableType) := []
  memories : List (Option Limits) := []
  globals : List (Option Global) := []
  exports : List (Option Export) := []
  start : Option UInt32 := none
  elements : List (Option ElementSegment) := []
  code : List (Option Code) := []
  data : List (Option DataSegment) := []
  deriving Repr, Inhabited

/-- The sections of a module, by which a fault is located. -/
inductive Section
  | custom
  | type
  | import
  | function
  | table
  | memory
  | global
  | export
  | start
  | element
  | code
  | data
  deriving DecidableEq, Repr, Inhabited

namespace Section

/-- The sections in the order of their numbers. -/
def all : List Section :=
  [.custom, .type, .import, .function, .table, .memory, .global, .export, .start,
    .element, .code, .data]

def name : Section → String
  | .custom => "custom"
  | .type => "type"
  | .import => "import"
  | .function => "function"
  | .table => "table"
  | .memory => "memory"
  | .global => "global"
  | .export => "export"
  | .start => "start"
  | .element => "element"
  | .code => "code"
  | .data => "data"

/-- The name of the section with the given number, or `unknown`. -/
def nameOf (number : UInt8) : String :=
  (all[number.toNat]?.map name).getD "unknown"

end Section

namespace Module

def importDescs (m : Module) : List ImportDesc :=
  m.imports.reduceOption.map Import.desc

def importCount (m : Module) (kind : ExternKind) : Nat :=
  m.importDescs.countP (·.kind = kind)

/-- The function index space: the type index of each function. -/
def functionSpace (m : Module) : List UInt32 :=
  m.importDescs.filterMap (fun | .func type => some type | _ => none) ++ m.functions

def tableSpace (m : Module) : List (Option TableType) :=
  m.importDescs.filterMap (fun | .table type => some type | _ => none) ++ m.tables

def memorySpace (m : Module) : List (Option Limits) :=
  m.importDescs.filterMap (fun | .memory limits => some limits | _ => none) ++
    m.memories

def globalSpace (m : Module) : List (Option GlobalType) :=
  m.importDescs.filterMap (fun | .global type => some type | _ => none)
    ++ m.globals.map (·.bind Global.type)

/-- The type of the function at an index of the function index space, if there is
one. -/
def typeOfFunction? (m : Module) (index : UInt32) : Option FuncType := do
  let type ← Index.lookup m.functionSpace index
  (← Index.lookup m.types type)

end Module
end WebAssembly
