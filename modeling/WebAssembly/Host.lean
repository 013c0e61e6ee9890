import WebAssembly.Store.Instance

/-!
# Host programs

A host function is not written in the language of modules.  It is a program that gives
results, fails, or performs a command on the store and goes on with the response.  So a
host function touches the store only through commands, and it may call back into the
engine.
-/

namespace WebAssembly

/-- The context under which a call runs. -/
inductive ContextChoice
  /-- A context that is never done. -/
  | background
  /-- The context of the call that performs the command. -/
  | inherited
  /-- A new context that is already canceled. -/
  | canceled
  /-- A new context whose deadline has passed. -/
  | expired
  /-- A new context that is live until it is canceled. -/
  | cancelable
  deriving DecidableEq, Repr, Inhabited

/-- What executes a function. -/
inductive FunctionKind
  | wasm
  | host
  | reserved (code : UInt8)
  deriving DecidableEq, Repr, Inhabited

namespace FunctionKind

/-- The kind of a number. -/
def ofCode (code : UInt8) : FunctionKind :=
  if code = 0 then .wasm else if code = 1 then .host else .reserved code

end FunctionKind

/-- New contents for some fields of a function; a field without new contents stays. -/
structure FunctionPatch where
  kind : Option FunctionKind := none
  type : Option (Option FuncType) := none
  module : Option UInt32 := none
  locals : Option (List ValueType) := none
  body : Option (List Instr) := none
  deriving Repr, Inhabited

/-- New contents for some address lists of a module instance; a list without new
contents stays. -/
structure ModulePatch where
  functions : Option (List UInt32) := none
  tables : Option (List UInt32) := none
  memories : Option (List UInt32) := none
  globals : Option (List UInt32) := none
  deriving DecidableEq, Repr, Inhabited

/-- What can be seen of a function from outside. -/
structure FunctionView where
  kind : FunctionKind
  type : FuncType
  name : String
  module : UInt32
  locals : List ValueType
  bodyLength : Nat
  deriving DecidableEq, Repr, Inhabited

/-- The number of instances of each kind in a store. -/
structure Counts where
  functions : Nat
  tables : Nat
  memories : Nat
  globals : Nat
  modules : Nat
  deriving DecidableEq, Repr, Inhabited

/-- The answer to a command. -/
inductive Response
  | done
  | failed (error : Error)
  | module (inst : ModuleInst)
  | results (values : List Val)
  | exported (value : ExternVal)
  | addr (addr : UInt32)
  | value (value : Val)
  | size (size : UInt32)
  | slot (content : Option UInt32)
  /-- The size before growth, or nothing when growth is refused. -/
  | grown (previous : Option UInt32)
  | bytes (bytes : List UInt8)
  | truth (value : Bool)
  | function (view : FunctionView)
  | table (inst : TableInst)
  | memory (inst : MemInst)
  | global (inst : GlobalInst)
  | counts (counts : Counts)
  deriving Inhabited

/-- How a host function stops a run without reporting an error of its own. -/
inductive HostStop
  | trap (text : String)
  | bug (text : String)
  | crash
  deriving DecidableEq, Repr, Inhabited

mutual

/-- What a host function does. -/
inductive HostProgram
  | done (results : List Val)
  | fail (error : Error)
  | stop (cause : HostStop)
  | perform (command : Command) (next : Response → HostProgram)

/-- An operation on a store. -/
inductive Command
  | instantiate (module : Option Module) (name : String) (externs : List ExternVal)
      (context : ContextChoice)
  | invoke (function : UInt32) (args : List Val) (context : ContextChoice)
  /-- Invokes the function that a module exports under a name. -/
  | call (module : UInt32) (name : String) (args : List Val) (context : ContextChoice)
  | findExport (module : UInt32) (name : String) (kind : ExternKind)
  | allocFunction (name : String) (type : Option FuncType)
    (host : Option (List Val → HostProgram))
  | allocTable (type : Option TableType)
  | allocMemory (limits : Option Limits)
  | allocGlobal (type : Option GlobalType) (value : Val)
  | globalGet (global : UInt32)
  | globalSet (global : UInt32) (value : Val)
  | tableSize (table : UInt32)
  | tableGet (table index : UInt32)
  | tableSet (table index : UInt32) (function : Option UInt32)
  | tableGrow (table delta : UInt32)
  | memorySize (memory : UInt32)
  | memoryRead (memory offset count : UInt32)
  | memoryWrite (memory offset : UInt32) (bytes : List UInt8)
  | memoryGrow (memory delta : UInt32)
  | memoryHasSize (memory : UInt32) (offset size : UInt64)
  | viewFunction (function : UInt32)
  | viewTable (table : UInt32)
  | viewMemory (memory : UInt32)
  | viewGlobal (global : UInt32)
  | viewModule (module : UInt32)
  | counts
  | patchFunction (function : UInt32) (patch : FunctionPatch)
  | patchElement (table : UInt32) (element : UInt8)
  | patchSlot (table index : UInt32) (function : Option UInt32)
  | patchModule (module : UInt32) (patch : ModulePatch)
  /-- Cancels the latest context that can be canceled. -/
  | cancel

end

instance : Inhabited HostProgram := ⟨.done []⟩
instance : Inhabited Command := ⟨.counts⟩

/-- A host function: what it does with its arguments. -/
abbrev HostFunction := List Val → HostProgram

namespace HostProgram

/-- Performs commands in order, whatever their responses, and then goes on. -/
def script (commands : List Command) (next : HostProgram) : HostProgram :=
  commands.foldr (fun command rest => .perform command fun _ => rest) next

/-- Invokes a function under the same context and gives what it gives. -/
def forward (function : UInt32) (args : List Val) : HostProgram :=
  .perform (.invoke function args .inherited) fun
    | .results values => .done values
    | .failed error => .fail error
    | _ => .done []

end HostProgram
end WebAssembly
