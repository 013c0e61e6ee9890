import WebAssembly.Numeric.Integer
import WebAssembly.Validation.Module
import WebAssembly.Value

/-!
# Errors

Everything that an operation on a store can report, as causes.  The wording of each
cause stands in one place, its `message`.

The text of an error is not always known: an engine that meets a state in which an
access of its own fails reports a bug without words, and so does every error that wraps
such a bug.
-/

namespace WebAssembly

/-- The kinds of instances that have addresses in a store. -/
inductive Space
  | function
  | table
  | memory
  | global
  | module
  deriving DecidableEq, Repr, Inhabited

namespace Space

def name : Space → String
  | .function => "function"
  | .table => "table"
  | .memory => "memory"
  | .global => "global"
  | .module => "module"

end Space

/-- Why an access to a store fails. -/
inductive AccessError
  | address (space : Space) (addr : UInt32)
  | slot (table : UInt32) (size : UInt32) (index : UInt32)
  | read (count offset memory : UInt32) (size : Nat)
  | write (count : Nat) (offset memory : UInt32) (size : Nat)
  | immutable (global : UInt32)
  | valueType (value : Val) (expected : ValueType)
  deriving DecidableEq, Repr, Inhabited

namespace AccessError

def message : AccessError → String
  | .address space addr => s!"invalid address: {space.name} {addr}"
  | .slot table size index =>
    s!"out of bounds: table {table} has {size} elements, index {index}"
  | .read count offset memory size =>
    s!"out of bounds: read of {count} bytes at {offset}, " ++
      s!"memory {memory} has {size} bytes"
  | .write count offset memory size =>
    s!"out of bounds: write of {count} bytes at {offset}, " ++
      s!"memory {memory} has {size} bytes"
  | .immutable global => s!"global is immutable: global {global}"
  | .valueType value expected =>
    s!"value type mismatch: {value.text} is not {expected.name}"

end AccessError

/-- Why an export is not found. -/
inductive ExportError
  | missing (name module : String)
  | kind (name module : String) (actual wanted : ExternKind)
  deriving DecidableEq, Repr, Inhabited

namespace ExportError

def message : ExportError → String
  | .missing name module =>
    s!"{Text.quoted name} is not exported in module {Text.quoted module}"
  | .kind name module actual wanted =>
    s!"export {Text.quoted name} in module {Text.quoted module} "
      ++ s!"is a {actual.name}, not a {wanted.name}"

end ExportError

/-- Why an extern value does not satisfy an import. -/
inductive Mismatch
  | kind (expected actual : ExternKind)
  | address (cause : AccessError)
  | signature (expected actual : FuncType)
  | elementType
  | tableLimits (limits : Limits) (size : UInt32)
  | memoryLimits (limits : Limits) (pages : UInt32)
  | mutability
  | valueType
  deriving DecidableEq, Repr, Inhabited

namespace Mismatch

def detail : Mismatch → String
  | .kind expected actual => s!"expected {expected.name}, but got {actual.name}"
  | .address cause => cause.message
  | .signature expected actual =>
    s!"signature mismatch: {expected.text} != {actual.text}"
  | .elementType => "incompatible table import: element type mismatch"
  | .tableLimits limits size =>
    s!"incompatible table import: {limits.text} does not match size {size}"
  | .memoryLimits limits pages =>
    s!"incompatible memory import: {limits.text} does not match {pages} pages"
  | .mutability => "incompatible global import: mutability mismatch"
  | .valueType => "incompatible global import: value type mismatch"

end Mismatch

/-- Why a module cannot be linked to what it is given. -/
inductive LinkError
  | count (imports externs : Nat)
  | mismatch (index : Nat) (cause : Mismatch)
  deriving DecidableEq, Repr, Inhabited

namespace LinkError

def message : LinkError → String
  | .count imports externs =>
    s!"import mismatch: module has {imports} imports, but {externs} externs were given"
  | .mismatch index cause => s!"import[{index}]: import mismatch: {cause.detail}"

end LinkError

/-- Why a segment does not fit. -/
inductive SegmentError
  | element (index count : Nat) (offset : UInt32) (size : UInt32)
  | data (index count : Nat) (offset : UInt32) (size : Nat)
  deriving DecidableEq, Repr, Inhabited

namespace SegmentError

def message : SegmentError → String
  | .element index count offset size =>
    s!"segment out of bounds: element[{index}] writes {count} elements at {offset}, "
      ++ s!"but table has {size}"
  | .data index count offset size =>
    s!"segment out of bounds: data[{index}] writes {count} bytes at {offset}, "
      ++ s!"but memory has {size}"

end SegmentError

/-- Why arguments do not fit a function. -/
inductive ArgumentError
  | count (expected actual : Nat)
  | type (index : Nat) (expected actual : ValueType)
  deriving DecidableEq, Repr, Inhabited

namespace ArgumentError

def detail : ArgumentError → String
  | .count expected actual => s!"expected {expected} params, but passed {actual}"
  | .type index expected actual =>
    s!"param[{index}] expected {expected.name}, but was {actual.name}"

end ArgumentError

/-- Why a context is done. -/
inductive DoneReason
  | canceled
  | deadlineExceeded
  deriving DecidableEq, Repr, Inhabited

namespace DoneReason

def text : DoneReason → String
  | .canceled => "context canceled"
  | .deadlineExceeded => "context deadline exceeded"

end DoneReason

/-- A state of the engine that validation rules out. -/
inductive Bug
  | noValue
  | wrongKind (expected : ValueType) (actual : Val)
  | noLabel
  | labelOutside (depth : UInt32)
  | labelMissing (depth : UInt32)
  | returnOutside
  | noMemory (module : String)
  | noTable (module : String)
  | globalIndex (index : UInt32)
  | functionIndex (index : UInt32)
  | access (cause : AccessError)
  | selectOperands (first second : Val)
  | unsupported (opcode : Opcode)
  | functionKind (code : UInt8)
  | functionModule (function : String) (cause : AccessError)
  | branchPast (function : String)
  | activationMissing (function : String)
  /-- A host function stops with a text. -/
  | reported (text : String)
  /-- An access fails that nothing guards; it has no words. -/
  | crash
  deriving DecidableEq, Repr, Inhabited

namespace Bug

/-- What is particular to the bug, if it has words. -/
def detail? : Bug → Option String
  | .noValue => some "expected a value on top of the stack"
  | .wrongKind expected actual =>
    some s!"expected {expected.name}, but stack has {actual.text}"
  | .noLabel => some "expected a label on top of the stack"
  | .labelOutside depth => some s!"label {depth} is outside of the function"
  | .labelMissing depth => some s!"label {depth} not found"
  | .returnOutside => some "return outside of a function"
  | .noMemory module => some s!"module {module} has no memory"
  | .noTable module => some s!"module {module} has no table"
  | .globalIndex index => some s!"global index {index} out of range"
  | .functionIndex index => some s!"function index {index} out of range"
  | .access cause => some cause.message
  | .selectOperands first second =>
    some s!"select operands differ: {first.text}, {second.text}"
  | .unsupported opcode => some s!"unsupported instruction {opcode.name}"
  | .functionKind code => some s!"unknown function kind {code}"
  | .functionModule function cause => some s!"function {function}: {cause.message}"
  | .branchPast function => some s!"branch past the function body of {function}"
  | .activationMissing function => some s!"activation of {function} is missing"
  | .reported text => some text
  | .crash => none

def message? (bug : Bug) : Option String :=
  bug.detail?.map ("BUG: engine invariant violated: " ++ ·)

end Bug

mutual

/-- What an operation on a store can report. -/
inductive Error
  /-- No module was given. -/
  | noModule
  | access (cause : AccessError)
  | exported (cause : ExportError)
  | fault (cause : Fault)
  | invalid (cause : Invalid)
  | instantiation (module : String) (cause : InstantiationError)
  /-- A run was aborted; the functions that were active are named, innermost first. -/
  | trap (cause : TrapCause) (backtrace : List String)
  | bug (cause : Bug)
  /-- A host function reports a failure of its own. -/
  | host (message : String)
  /-- An access fails that nothing guards. -/
  | crash
  /-- The bound on the length of a run was too small to tell. -/
  | exhausted

/-- Why a module cannot be instantiated. -/
inductive InstantiationError
  | invalid (cause : Invalid)
  | link (cause : LinkError)
  | segment (cause : SegmentError)
  | noEngine
  | start (cause : Error)

/-- Why a run is aborted. -/
inductive TrapCause
  | callStackOverflow
  | arithmetic (cause : ArithmeticFailure)
  | unreachable
  | memoryAccess
  | tableAccess
  | indirectCallType
  | arguments (cause : ArgumentError)
  | hostFailure (function : String) (cause : Error)
  | hostResultCount (function : String) (count : Nat) (type : FuncType)
  | hostResultType (function : String) (index : Nat) (result : Val) (type : FuncType)
  | stepBudget
  | contextDone (reason : DoneReason)
  /-- A host function aborts the run with a text. -/
  | raised (text : String)

end

instance : Inhabited Error := ⟨.noModule⟩
instance : Inhabited InstantiationError := ⟨.noEngine⟩
instance : Inhabited TrapCause := ⟨.unreachable⟩

namespace ArithmeticFailure

def text : ArithmeticFailure → String
  | .invalidConversion => "invalid conversion to integer"
  | .overflow => "integer overflow"
  | .divideByZero => "integer divide by zero"

end ArithmeticFailure

namespace InstantiationError

/-- The message for a cause that is already written out; a module without a name is not
named. -/
def messageOf (module cause : String) : String :=
  if module = "" then s!"instantiation failed: {cause}"
  else s!"instantiation of module {Text.quoted module} failed: {cause}"

end InstantiationError

namespace TrapCause

/-- The lines of a backtrace, numbered from the innermost function. -/
def backtraceLines (position : Nat) : List String → List String
  | [] => []
  | name :: rest => s!"\t{position}: {name}" :: backtraceLines (position + 1) rest

/-- The message for a cause that is already written out, followed by the backtrace if
there is one. -/
def messageOf (cause : String) (backtrace : List String) : String :=
  let message := "wasm runtime error: " ++ cause
  if backtrace.isEmpty then message
  else message ++ "\nwasm backtrace:\n" ++ String.intercalate "\n"
    (backtraceLines 0 backtrace)

end TrapCause

mutual

def Error.message? : Error → Option String
  | .noModule => some "module == nil"
  | .access cause => some cause.message
  | .exported cause => some cause.message
  | .fault cause => some cause.message
  | .invalid cause => some cause.message
  | .instantiation module cause =>
    cause.message?.map (InstantiationError.messageOf module)
  | .trap cause backtrace => cause.message?.map (TrapCause.messageOf · backtrace)
  | .bug cause => cause.message?
  | .host message => some message
  | .crash | .exhausted => none

def InstantiationError.message? : InstantiationError → Option String
  | .invalid cause => some cause.message
  | .link cause => some cause.message
  | .segment cause => some cause.message
  | .noEngine => some "start function trapped: no engine"
  | .start cause => cause.message?.map ("start function trapped: " ++ ·)

def TrapCause.message? : TrapCause → Option String
  | .callStackOverflow => some "callstack overflow"
  | .arithmetic cause => some cause.text
  | .unreachable => some "unreachable"
  | .memoryAccess => some "out of bounds memory access"
  | .tableAccess => some "invalid table access"
  | .indirectCallType => some "indirect call type mismatch"
  | .arguments cause => some s!"invalid arguments: {cause.detail}"
  | .hostFailure function cause =>
    cause.message?.map (s!"host function failed: {function}: " ++ ·)
  | .hostResultCount function count type =>
    some (s!"host function failed: {function} returned {count} results, " ++
      s!"but its type is {type.text}")
  | .hostResultType function index result type =>
    some (s!"host function failed: {function} result[{index}] is {result.text}, "
      ++ s!"but its type is {type.text}")
  | .stepBudget => some "step budget exceeded"
  | .contextDone reason => some s!"context done: {reason.text}"
  | .raised text => some text

end
end WebAssembly
